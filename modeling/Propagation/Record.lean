import Propagation.Network.Basic
import Propagation.Node.Basic
import Propagation.Vector
import Propagation.Info.Basic
import Propagation.Transmission

/-!
# Records and their keys

The six kinds of record under one type, so that a rule that holds of all of them is stated
once. A record is found under its key and refers to other records by theirs.

## Main definitions

* `Key`: the kind and the identifier of a record.
* `Record`: a record of any kind.
* `Record.key`: the key of a record.
* `Record.references`: the keys of the records that a record needs to be there.
-/

namespace Propagation

/-- The kind and the identifier of a record. -/
inductive Key
  | network (id : NetworkId)
  | node (id : NodeId)
  | vector (id : VectorId)
  | info (id : InfoId)
  | transmission (id : TransmissionId)
  | transformation (id : TransformationId)
  deriving DecidableEq

namespace Key

/-- The kind of record that the key is for. -/
def entity : Key → Entity
  | network _ => .network
  | node _ => .node
  | vector _ => .vector
  | info _ => .info
  | transmission _ => .transmission
  | transformation _ => .transformation

/-- The identifier as a number. -/
def number : Key → Nat
  | network id => id.number
  | node id => id.number
  | vector id => id.number
  | info id => id.number
  | transmission id => id.number
  | transformation id => id.number

/-- The identifier as messages show it, with `Id.text`. -/
def idText : Key → String
  | network id => id.text
  | node id => id.text
  | vector id => id.text
  | info id => id.text
  | transmission id => id.text
  | transformation id => id.text

/-- What messages call the record under the key. -/
def label (k : Key) : String := k.entity.label ++ " " ++ k.idText

theorem ext {a b : Key} (he : a.entity = b.entity) (hn : a.number = b.number) : a = b := by
  cases a <;> cases b <;> simp_all [entity, number] <;> exact Id.number_injective hn

instance : Ord Key := ⟨compareLex (compareOn entity) (compareOn number)⟩

instance : Std.TransOrd Key :=
  inferInstanceAs (Std.TransCmp (compareLex (compareOn entity) (compareOn number)))

instance : Std.LawfulEqOrd Key where
  eq_of_compare {a b} h := by
    obtain ⟨he, hn⟩ := Ordering.then_eq_eq.1 h
    exact ext (Std.LawfulEqOrd.eq_of_compare (α := Entity) he) (Nat.compare_eq_eq.1 hn)

end Key

/-- A record of any kind. -/
inductive Record
  | network (network : Network)
  | node (node : Node)
  | vector (vector : Vector)
  | info (info : Info)
  | transmission (transmission : Transmission)
  | transformation (transformation : Transformation)
  deriving DecidableEq

namespace Record

/-- The key under which the record is found. -/
def key : Record → Key
  | network n => .network n.id
  | node n => .node n.id
  | vector v => .vector v.id
  | info i => .info i.id
  | transmission t => .transmission t.id
  | transformation t => .transformation t.id

/-- The keys of the records that have to be there before a record is stored, in the order in which
they are looked for. -/
def references : Record → List Key
  | network _ => []
  | node n => n.network.toList.map .network
  | vector v => [.node v.origin, .node v.destination]
  | info i => [.node i.origin]
  | transmission t => [.info t.info, .node t.destination]
  | transformation t => [.node t.node, .info t.infoIn, .info t.infoOut]

/-- What messages call the record; a network goes without. -/
def label? : Record → Option String
  | network _ => none
  | node n => n.label
  | vector v => v.label
  | info i => i.label
  | transmission t => t.label
  | transformation t => t.label

end Record

end Propagation
