import Propagation.Node.Neighbours

/-!
# The members of a network

A node is a member of the network it points at. The agents of a network are its members of that
role that are alive, its sources those that have not failed.

## Main definitions

* `Network.create`: store a new network.
* `Network.agents`, `Network.sources`, `Network.nodes`: the members.
* `Network.vectors`, `Network.degrees`: the vectors that start at a member.
* `Network.hasParticipant`: whether a participant is a member.
* `Network.Summary`, `Network.summary`: the counts of a network.
* `Network.length`: the question that has no answer.
-/

namespace Propagation

namespace Vector

/-- Vectors by origin, then by destination. -/
def byEnds : Vector → Vector → Ordering := compareLex (compareOn origin) (compareOn destination)

end Vector

namespace Network

/-- Make a network and store it. -/
def create (kind : NetworkKind) : Op Network := do
  let network ← Network.fresh kind
  Access.insert (.network network)
  return network

/-- The member agents that are neither dead nor failed. -/
def agents (network : Network) : Access (List Node) :=
  Access.nodes { network := some network.id, role := some .agent, excluded := [.failed, .dead] }

/-- The member sources that have not failed. -/
def sources (network : Network) : Access (List Node) :=
  Access.nodes { network := some network.id, role := some .source, excluded := [.failed] }

/-- The sources, then the agents. -/
def nodes (network : Network) : Access (List Node) := do
  let sources ← network.sources
  return sources ++ (← network.agents)

/-- The vectors that start at a member, sorted `byEnds`, parallel ones by age. -/
def vectors (network : Network) : Access (List Vector) := do
  return sort Vector.byEnds (← Access.vectors { network := some network.id })

/-- The outdegree of each of the `agents`. -/
def degrees (network : Network) : Access (List Nat) := do
  (← network.agents).mapM Node.outdegree

/-- Whether a member carries the name `participant`. -/
def hasParticipant (network : Network) (participant : String) : Access Bool := do
  return !(← Access.nodes
    { network := some network.id, participant := some participant }).isEmpty

/-- There is no single size of a network. -/
def length (_ : Network) : Except Error Nat := .error .networkLength

/-- The counts of a network. -/
structure Summary where
  id : NetworkId
  kind : NetworkKind
  agents : Nat
  sources : Nat
  vectors : Nat
  deriving DecidableEq

/-- Count the agents, sources and vectors of a network. -/
def summary (network : Network) : Access Summary := do
  let agents := (← network.agents).length
  let sources := (← network.sources).length
  let vectors := (← network.vectors).length
  return { id := network.id, kind := network.kind, agents, sources, vectors }

/-- The counts of a network as a text. -/
def Summary.text (s : Summary) : String :=
  "<Network-" ++ s.id.short ++ "-" ++ s.kind.text ++ " with " ++ Numeral.decimal s.agents ++
    " agents, " ++ Numeral.decimal s.sources ++ " sources, " ++ Numeral.decimal s.vectors ++
    " vectors>"

end Network

end Propagation
