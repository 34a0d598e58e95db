import Propagation.Id.Text
import Propagation.Timestamp

/-!
# Infos and transformations

An info is a piece of content that one node authored. Its contents are written once: an info
that has contents keeps them. A transformation records that a node derived one info from another.

## Main definitions

* `Info`: the record of an info.
* `InfoFilter`: a choice of infos by their type.
* `Transformation`: the record of a transformation.
-/

namespace Propagation

/-- The record of an info. -/
structure Info where
  id : InfoId
  /-- A free tag. -/
  infoType : String := "base"
  /-- The node that authored the info. -/
  origin : NodeId
  creationTime : Timestamp
  /-- The contents, once they are written. -/
  contents : Option String := none
  deriving DecidableEq

/-- A choice of infos by their type. -/
inductive InfoFilter
  /-- Every info. -/
  | any
  /-- The infos of a type. -/
  | type (name : String)
  deriving DecidableEq

/-- Whether the filter chooses an info. -/
def InfoFilter.matches : InfoFilter → Info → Bool
  | any, _ => true
  | type name, i => i.infoType = name

namespace Info

/-- Whether the contents are written. -/
def hasContents (i : Info) : Bool := i.contents.isSome

/-- What messages call the info. -/
def label (i : Info) : String := "Info-" ++ i.id.short ++ "-" ++ i.infoType

end Info

/-- The record of a transformation. -/
structure Transformation where
  id : TransformationId
  /-- A free tag. -/
  transformationType : String := "base"
  /-- The node that derived the info. -/
  node : NodeId
  /-- The info that was there. -/
  infoIn : InfoId
  /-- The info that was derived from it. -/
  infoOut : InfoId
  transformTime : Timestamp
  deriving DecidableEq

/-- What messages call the transformation. -/
def Transformation.label (t : Transformation) : String := "Transformation-" ++ t.id.short

end Propagation
