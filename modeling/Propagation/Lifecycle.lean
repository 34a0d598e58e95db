import Propagation.Operation

/-!
# The life of nodes and vectors

A node is created alive and ends once, dead or failed, and a vector dies once. The stored record
decides: an end that is asked for through an old copy never moves the recorded time, and the copy is
brought up to date.

## Main definitions

* `Node.ended`: a node moved to an end, where that is possible.
* `Node.create`, `Node.insert`: store a new node.
* `Node.kill`, `Node.fail`: end a stored node.
* `Vector.kill`: let a stored vector die.
* `Vector.network`: the network that a vector belongs to.
* `Vector.transmissions`: what passed from the origin of a vector to its destination.
-/

namespace Propagation

namespace Node

/-- The node with the end `target` since `now`, or nothing if it has that end already. -/
def ended (target : NodeStatus) (now : Timestamp) (n : Node) : Except Error (Option Node) :=
  if target = .alive then .error (.noRevival n)
  else if n.status = .alive then
    .ok (some { n with status := target, timeOfDeath := some now })
  else if n.status = target then .ok none
  else .error (.endedOtherwise n target)

/-- Store a node that was made outside the store. -/
def insert (n : Node) : Access Node := do
  Access.insert (.node n)
  return n

/-- Make a node and store it. -/
def create (kind : NodeKind) : Op Node := do
  insert (← Node.fresh kind)

/-- Move the stored node to an end. -/
def finish (target : NodeStatus) : Holding Node Unit := do
  let stored ← Access.requireNode (← Holding.copy).id
  let now ← Minting.now
  match ← ofExcept (stored.ended target now) with
  | some n =>
    Access.revise (.node n)
    Holding.refresh n
  | none => Holding.refresh stored

/-- Let the stored node die. A dead node stays as it is. -/
def kill : Holding Node Unit := finish .dead

/-- Let the stored node fail. A failed node stays as it is. -/
def fail : Holding Node Unit := finish .failed

end Node

namespace Vector

/-- Let the stored vector die. A dead vector stays as it is. -/
def kill : Holding Vector Unit := do
  let stored ← Access.requireVector (← Holding.copy).id
  match stored.markDead (← Minting.now) with
  | some v =>
    Access.revise (.vector v)
    Holding.refresh v
  | none => Holding.refresh stored

/-- The network of the vector's origin. -/
def network (v : Vector) : Access (Option NetworkId) :=
  return (← Access.requireNode v.origin).network

/-- The transmissions from the origin of the vector to its destination. Parallel vectors have
the same ones. -/
def transmissions (v : Vector) : Access (List Transmission) :=
  Access.transmissions { origin := some v.origin, destination := some v.destination }

end Vector

end Propagation
