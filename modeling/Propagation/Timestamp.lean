import Propagation.Moment.Text
import Std.Data.ExtTreeMap

/-!
# Timestamps

A timestamp is the written form of a moment, and is compared as a text. Texts of equal length
compare as the moments do; a year with a sign comes before every year without one.

## Main definitions

* `Timestamp`: a text that is the written form of a moment.
* `Timestamp.ofMoment`, `Timestamp.moment`: from a moment and back.
* `Timestamp.read`: the timestamp of the moment that a text denotes.
-/

namespace Propagation

/-- The written form of a moment. -/
structure Timestamp where
  /-- The text. -/
  text : String
  written : ∃ m : Moment, text = m.text
  deriving DecidableEq

namespace Timestamp

/-- The timestamp of `m`, which is its written form. -/
def ofMoment (m : Moment) : Timestamp := ⟨m.text, m, rfl⟩

/-- The timestamp of the moment that `s` denotes. -/
def read (s : String) : Except Moment.Fault Timestamp := (Moment.read s.toList).map ofMoment

/-- The moment that `t` denotes. -/
def moment (t : Timestamp) : Moment :=
  match Moment.read t.text.toList with
  | .ok m => m
  | .error _ => Moment.first

theorem text_injective {a b : Timestamp} (h : a.text = b.text) : a = b := by
  cases a; cases b; cases h; rfl

instance : Ord Timestamp := ⟨compareOn text⟩

instance : Std.TransOrd Timestamp := inferInstanceAs (Std.TransCmp (compareOn text))

end Timestamp

end Propagation
