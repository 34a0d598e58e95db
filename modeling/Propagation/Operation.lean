import Propagation.Mint
import Propagation.Transaction.Access

/-!
# Operations

An operation on an experiment runs inside a transaction and may take times and identifiers from
the mint. Some operations are asked for by somebody who holds a copy of a record and bring the
copy up to date.

What an operation did before it failed stays done: it is for the owner of the transaction to
give it up.

## Main definitions

* `Scene`: an open transaction and the mint.
* `Op`: operations, into which `Access` and `Minting` lift.
* `Holder`: a scene and a copy of a record.
* `Holding`: operations on a copy, into which `Op` lifts.
-/

namespace Propagation

/-- What an operation works on. -/
structure Scene where
  /-- The transaction in which the operation runs. -/
  tx : Transaction
  mint : Mint

/-- An operation. -/
abbrev Op := EStateM Error Scene

namespace Op

variable {α : Type}

/-- Use the transaction. -/
def access (a : Access α) : Op α := fun s =>
  match a s.tx with
  | .ok v tx => .ok v { s with tx }
  | .error e tx => .error e { s with tx }

/-- Use the mint. -/
def minting (a : Minting α) : Op α := fun s =>
  let (v, mint) := a s.mint
  .ok v { s with mint }

instance : MonadLift Access Op := ⟨access⟩

instance : MonadLift Minting Op := ⟨minting⟩

end Op

/-- A scene and the copy of a record that somebody holds. -/
structure Holder (ρ : Type) where
  copy : ρ
  scene : Scene

/-- An operation on a copy of a record. -/
abbrev Holding (ρ : Type) := EStateM Error (Holder ρ)

namespace Holding

variable {ρ α : Type}

/-- Run `a`, which leaves the copy alone. -/
def op (a : Op α) : Holding ρ α := fun s =>
  match a s.scene with
  | .ok v scene => .ok v { s with scene }
  | .error e scene => .error e { s with scene }

instance : MonadLift Op (Holding ρ) := ⟨op⟩

/-- The copy. -/
def copy : Holding ρ ρ := return (← get).copy

/-- Put `r` in the place of the copy. -/
def refresh (r : ρ) : Holding ρ Unit := modify ({ · with copy := r })

end Holding

end Propagation
