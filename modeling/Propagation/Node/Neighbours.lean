import Propagation.Operation
import Propagation.Distinct

/-!
# The neighbours of a node

Who a node can reach is asked of the vectors each time. Degrees and neighbours count dead
vectors too; what is called live counts only vectors that are alive.

## Main definitions

* `Node.connect`: a new vector between two nodes.
* `Node.outgoing`, `Node.incoming`, `Node.outdegree`, `Node.indegree`: the vectors at a node.
* `Node.successors`, `Node.predecessors`, `Node.liveSuccessors`: the nodes across them.
* `Node.leadsTo`, `Node.reachedFrom`, `Node.leadsToAlive`: whether a vector leads from one node to
  another.
-/

namespace Propagation

/-- An end of a vector. -/
inductive Side
  | outgoing
  | incoming

namespace Side

/-- The vectors at this side of a node, as a query for those that start or end there. -/
def query : Side → NodeId → VectorQuery
  | outgoing, n => { origin := some n }
  | incoming, n => { destination := some n }

/-- The node across a vector that leaves or enters at this side. -/
def across : Side → Vector → NodeId
  | outgoing, v => v.destination
  | incoming, v => v.origin

end Side

namespace Node

/-- Make a vector from `origin` to `destination` and store it. -/
def connect (origin destination : NodeId) : Op Vector := do
  let v ← Vector.fresh origin destination
  Access.insert (.vector v)
  return v

/-- The vectors that leave node `n`. -/
def outgoing (n : Node) : Access (List Vector) := Access.vectors (Side.outgoing.query n.id)

/-- The vectors that enter node `n`. -/
def incoming (n : Node) : Access (List Vector) := Access.vectors (Side.incoming.query n.id)

/-- The number of vectors that leave node `n`. -/
def outdegree (n : Node) : Access Nat := Access.countVectors (Side.outgoing.query n.id)

/-- The number of vectors that enter node `n`. -/
def indegree (n : Node) : Access Nat := Access.countVectors (Side.incoming.query n.id)

/-- The nodes across the vectors of `status`, or across all vectors, at one side of the node:
each one once, in the order of its first vector, and only those that the filter chooses. -/
def neighbours (side : Side) (status : Option VectorStatus) (f : NodeFilter) (n : Node) :
    Access (List Node) := do
  let vectors ← Access.vectors { side.query n.id with status }
  let nodes ← (distinct (fun i => i) (vectors.map side.across)).mapM Access.requireNode
  return nodes.filter f.matches

/-- The nodes that `f` chooses among those to which a vector leads from `n`. -/
def successors (f : NodeFilter) (n : Node) : Access (List Node) := n.neighbours .outgoing none f

/-- The nodes that `f` chooses among those from which a vector leads to `n`. -/
def predecessors (f : NodeFilter) (n : Node) : Access (List Node) :=
  n.neighbours .incoming none f

/-- The nodes that `f` chooses among those to which a vector leads from `n` that is alive. -/
def liveSuccessors (f : NodeFilter) (n : Node) : Access (List Node) :=
  n.neighbours .outgoing (some .alive) f

/-- Whether a vector leads from `n` to `other`. -/
def leadsTo (n other : Node) : Access Bool := do
  return 0 < (← Access.countVectors { origin := some n.id, destination := some other.id })

/-- Whether a vector leads from `other` to `n`. -/
def reachedFrom (n other : Node) : Access Bool := other.leadsTo n

/-- Whether a vector that is alive leads from `n` to `other`. -/
def leadsToAlive (n other : Node) : Access Bool := do
  return 0 < (← Access.countVectors
    { origin := some n.id, destination := some other.id, status := some .alive })

end Node

end Propagation
