import Propagation.Operation

/-!
# Authoring infos

An info is stored with or without contents; contents are written once. The stored info decides
whether they may still be written. A node authors infos of its own and copies of others, and records
from which info it derived which.

## Main definitions

* `Info.withContents`: an info with its contents written, where that is possible.
* `Info.create`, `Info.insert`: store a new info.
* `Info.write`: write the contents of a stored info.
* `Info.transmissions`, `Info.appliedTo`, `Info.whence`: what became of an info.
* `Node.infos`, `Node.transformations`: what a node authored, and what it derived.
* `Node.transform`: record that a node derived an info from another.
* `Node.replicate`: a copy of an info, authored by the node that copies it.
-/

namespace Propagation

namespace Info

/-- The info `i` with `contents` written, if nothing is written in it. -/
def withContents (contents : String) (i : Info) : Except Error Info :=
  if i.hasContents then .error (.contentsWritten i.id)
  else .ok { i with contents := some contents }

/-- Store an info `i` that was made outside the store. -/
def insert (i : Info) : Access Info := do
  Access.insert (.info i)
  return i

/-- Make an info with contents and store it, as `origin` does. -/
def create (origin : NodeId) (infoType contents : String) : Op Info := do
  let i ← Info.fresh origin infoType
  insert { i with contents := some contents }

/-- Write `contents` in the stored info. -/
def write (contents : String) : Holding Info Unit := do
  let stored ← Access.requireInfo (← Holding.copy).id
  let written ← ofExcept (stored.withContents contents)
  Access.revise (.info written)
  Holding.refresh written

/-- The transmissions of the info. -/
def transmissions (i : Info) : Access (List Transmission) :=
  Access.transmissions { info := some i.id }

/-- The transformations that started from the info. -/
def appliedTo (i : Info) : Access (List Transformation) :=
  Access.transformations { infoIn := some i.id }

/-- The transformations that led to the info. -/
def whence (i : Info) : Access (List Transformation) :=
  Access.transformations { infoOut := some i.id }

end Info

namespace Node

/-- The infos that node `n` authored and the filter `f` chooses. -/
def infos (f : InfoFilter) (n : Node) : Access (List Info) := do
  return (← Access.infos { origin := some n.id }).filter f.matches

/-- The transformations that the node performed. -/
def transformations (n : Node) : Access (List Transformation) :=
  Access.transformations { node := some n.id }

/-- Record that node `n` derived the info `infoOut` from `infoIn`. -/
def transform (n : Node) (infoIn infoOut : InfoId) (transformationType : String) :
    Op Transformation := do
  let t ← Transformation.fresh n.id infoIn infoOut transformationType
  Access.insert (.transformation t)
  return t

/-- Copy `infoIn`, as an info that node `n` authors, and record where the copy comes from. -/
def replicate (n : Node) (infoIn : Info) : Op (Info × Transformation) := do
  let i ← Info.fresh n.id infoIn.infoType
  let infoOut ← Info.insert { i with contents := infoIn.contents }
  let t ← n.transform infoIn.id infoOut.id "replication"
  return (infoOut, t)

end Node

end Propagation
