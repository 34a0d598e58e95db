import Std.Data.ExtTreeMap

/-!
# Identifiers

Every record of an experiment has a 128-bit identifier, typed by the kind of record it names,
so that the identifier of a node is never taken for that of an info. Identifiers are ordered
as numbers.

## Main definitions

* `Entity`: the six kinds of record.
* `Id e`: an identifier of a record of kind `e`.
-/

namespace Propagation

/-- The kinds of record. -/
inductive Entity
  | network
  | node
  | vector
  | info
  | transmission
  | transformation
  deriving DecidableEq

namespace Entity

/-- The place of a kind in the list of kinds, by which `Entity` is ordered. -/
def rank : Entity → Nat
  | network => 0
  | node => 1
  | vector => 2
  | info => 3
  | transmission => 4
  | transformation => 5

theorem rank_injective {a b : Entity} (h : a.rank = b.rank) : a = b := by
  cases a <;> cases b <;> first | rfl | simp [rank] at h

instance : Ord Entity := ⟨compareOn rank⟩

instance : Std.TransOrd Entity := inferInstanceAs (Std.TransCmp (compareOn rank))

instance : Std.LawfulEqOrd Entity where
  eq_of_compare h := rank_injective (Nat.compare_eq_eq.1 h)

/-- What messages call a record of this kind. -/
def label : Entity → String
  | network => "Network"
  | node => "Node"
  | vector => "Vector"
  | info => "Info"
  | transmission => "Transmission"
  | transformation => "Transformation"

end Entity

/-- An identifier of a record of kind `e`. -/
structure Id (e : Entity) where
  /-- The 128 bits of the identifier. -/
  bits : BitVec 128
  deriving DecidableEq

namespace Id

variable {e : Entity}

/-- The bits of the identifier as a number. -/
def number (i : Id e) : Nat := i.bits.toNat

theorem number_injective {a b : Id e} (h : a.number = b.number) : a = b := by
  cases a; cases b
  exact congrArg Id.mk (BitVec.eq_of_toNat_eq h)

instance : Ord (Id e) := ⟨compareOn number⟩

instance : Std.TransOrd (Id e) := inferInstanceAs (Std.TransCmp (compareOn number))

instance : Std.LawfulEqOrd (Id e) where
  eq_of_compare h := number_injective (Nat.compare_eq_eq.1 h)

end Id

/-- The identifier of a network. -/
abbrev NetworkId := Id .network
/-- The identifier of a node. -/
abbrev NodeId := Id .node
/-- The identifier of a vector. -/
abbrev VectorId := Id .vector
/-- The identifier of an info. -/
abbrev InfoId := Id .info
/-- The identifier of a transmission. -/
abbrev TransmissionId := Id .transmission
/-- The identifier of a transformation. -/
abbrev TransformationId := Id .transformation

end Propagation
