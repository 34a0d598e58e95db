import Propagation.Network.Membership

/-!
# Joining a network

A stored node joins a network in the role it plays, and is then wired: a source to all agents,
to one, or to none; an agent as the kind of the network has it. The copy through which the node
joins is brought up to date as soon as the node is a member.

## Main definitions

* `Network.adopt`: make a stored node a member.
* `NetworkKind.wiring`: the ends of the vectors that join an agent to those before it.
* `Network.addSource`, `Network.addSourceToAll`, `Network.addSourceTo`, `Network.addAgent`.
-/

namespace Propagation

/-- The ends of the vectors that join the agent `new` to the `earlier` ones. -/
def NetworkKind.wiring (earlier : List NodeId) (new : NodeId) :
    NetworkKind → List (NodeId × NodeId)
  | base => []
  | chain => earlier.getLast?.toList.map fun previous => (previous, new)
  | fullyConnected => earlier.flatMap fun other => [(other, new), (new, other)]
  | star => earlier.head?.toList.flatMap fun hub => [(hub, new), (new, hub)]

namespace Network

/-- Make the stored node a member of `network`, if the copy says that it plays the `role`. -/
def adopt (network : Network) (role : NodeRole) : Holding Node Unit := do
  let node ← Holding.copy
  if node.kind.role ≠ role then
    throw (.wrongRole node network.id role)
  let stored ← Access.requireNode node.id
  let joined := { stored with network := some network.id }
  Access.revise (.node joined)
  Holding.refresh joined

/-- Make a vector for each pair of `ends`, in their order. -/
def wire (ends : List (NodeId × NodeId)) : Op (List Vector) :=
  ends.mapM fun (origin, destination) => Node.connect origin destination

/-- Make a source a member of `network`. -/
def addSource (network : Network) : Holding Node Unit := network.adopt .source

/-- Make a source a member of `network` and join it to all agents. -/
def addSourceToAll (network : Network) : Holding Node (List Vector) := do
  network.adopt .source
  let agents ← network.agents
  let source ← Holding.copy
  wire (agents.map fun agent => (source.id, agent.id))

/-- Make a source a member of `network` and join it to the node `agent`. -/
def addSourceTo (network : Network) (agent : NodeId) : Holding Node (List Vector) := do
  network.adopt .source
  let source ← Holding.copy
  wire [(source.id, agent)]

/-- Make an agent a member of `network` and join it to the agents before it, by
`NetworkKind.wiring`. -/
def addAgent (network : Network) : Holding Node (List Vector) := do
  let earlier ← network.agents
  network.adopt .agent
  let agent ← Holding.copy
  wire (network.kind.wiring (earlier.map (·.id)) agent.id)

end Network

end Propagation
