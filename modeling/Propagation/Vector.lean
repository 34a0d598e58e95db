import Propagation.Id.Text
import Propagation.Timestamp

/-!
# Vectors

A vector leads from one node to another and is the only way for information to pass. Several
vectors may join the same two nodes, and a vector may lead back to its origin. A vector belongs
to the network of its origin.

## Main definitions

* `Vector`: the record of a vector.
* `Vector.markDead`: the vector once it is dead.
* `Vector.otherNode`: the end of a vector that is across from a node.
-/

namespace Propagation

/-- How a vector fares. A dead vector stays dead. -/
inductive VectorStatus
  | alive
  | dead
  deriving DecidableEq

/-- The record of a vector. -/
structure Vector where
  id : VectorId
  /-- The node that the vector leaves. -/
  origin : NodeId
  /-- The node that the vector enters. -/
  destination : NodeId
  creationTime : Timestamp
  /-- How the vector fares. -/
  status : VectorStatus := .alive
  /-- When the vector died. -/
  timeOfDeath : Option Timestamp := none
  deriving DecidableEq

namespace Vector

/-- Whether the vector is alive. -/
def isAlive (v : Vector) : Bool := v.status = .alive

/-- The vector dead since `now`, or nothing if it is dead already. -/
def markDead (now : Timestamp) (v : Vector) : Option Vector :=
  if v.isAlive then some { v with status := .dead, timeOfDeath := some now } else none

/-- The end of the vector across from the node `here`, if `here` is an end. -/
def otherNode (v : Vector) (here : NodeId) : Option NodeId :=
  if here = v.origin then some v.destination
  else if here = v.destination then some v.origin
  else none

/-- What messages call the vector. -/
def label (v : Vector) : String := "Vector-" ++ v.origin.short ++ "-" ++ v.destination.short

end Vector

end Propagation
