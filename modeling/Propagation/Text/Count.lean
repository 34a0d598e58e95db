import Propagation.Text.Numeral

/-!
# Written counts

A count is written in decimal digits, perhaps behind one plus sign, and must lie below a limit.

## Main definitions

* `Count.Fault`: why a text is not a count.
* `Count.read`: the count that a text denotes, or the first fault from the left.
-/

namespace Propagation.Count

/-- Why a text is not a count. -/
inductive Fault
  /-- There is no text. -/
  | empty
  /-- A character is not a digit, or a sign stands alone. -/
  | invalidDigit
  /-- The digits reach the limit. -/
  | tooLarge
  deriving DecidableEq

/-- What messages say about a fault. -/
def Fault.message : Fault → String
  | empty => "cannot parse integer from empty string"
  | invalidDigit => "invalid digit found in string"
  | tooLarge => "number too large to fit in target type"

/-- Digits that follow a count of value `start`. A digit is looked at before the value it leads
to. -/
def extend (limit start : Nat) : List Char → Except Fault Nat
  | [] => .ok start
  | c :: rest =>
    match Numeral.digitValue? 10 c with
    | none => .error .invalidDigit
    | some d =>
      if start * 10 + d < limit then extend limit (start * 10 + d) rest
      else .error .tooLarge

/-- The count below `limit` that `s` denotes. -/
def read (limit : Nat) (s : List Char) : Except Fault Nat :=
  match s with
  | [] => .error .empty
  | ['+'] => .error .invalidDigit
  | '+' :: digits => extend limit 0 digits
  | digits => extend limit 0 digits

end Propagation.Count
