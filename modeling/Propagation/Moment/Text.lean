import Propagation.Moment.Basic
import Propagation.Text.Basic
import Propagation.Text.Numeral

/-!
# The written form of a moment

A moment is written `YYYY-MM-DDThh:mm:ss.ffffff`, with a sign and as many digits as it takes
for a year outside 0 to 9999. A leap second is written with the number after that of the second
that it follows: after the second 59 as 60, and after any other second just like the next one.
Reading takes more than writing produces: blanks before any number, fewer digits, no fraction, a
sign before any year.

## Main definitions

* `Moment.text`: the written form.
* `Moment.Fault`: why a text is not the written form of a moment.
* `Moment.read`: the moment that a text denotes, or the first fault from the left. A date
  that does not exist is only found out once the whole text has been read.
-/

namespace Propagation.Moment

/-- A year as it is written: four digits, or a sign and at least four digits. -/
def yearText (year : Int) : List Char :=
  if 0 ≤ year ∧ year ≤ 9999 then Numeral.padded 4 year.natAbs
  else (if year < 0 then '-' else '+') :: Numeral.padded 4 year.natAbs

/-- The second that is written for the moment `m`. -/
def writtenSecond (m : Moment) : Nat := m.second + m.micro / 1000000

/-- The microsecond that is written for the moment `m`. -/
def writtenMicro (m : Moment) : Nat := m.micro % 1000000

/-- The characters of the written form. -/
def chars (m : Moment) : List Char :=
  yearText m.year ++ '-' :: Numeral.fixed 10 2 m.month ++ '-' :: Numeral.fixed 10 2 m.day ++
    'T' :: Numeral.fixed 10 2 m.hour ++ ':' :: Numeral.fixed 10 2 m.minute ++
    ':' :: Numeral.fixed 10 2 m.writtenSecond ++ '.' :: Numeral.fixed 10 6 m.writtenMicro

/-- The written form, as a string. -/
def text (m : Moment) : String := String.ofList m.chars

/-- Why a text is not the written form of a moment. -/
inductive Fault
  /-- The text ends too early. -/
  | premature
  /-- A character stands where another one is expected. -/
  | invalid
  /-- A number is too large or too small, or the date does not exist. -/
  | outOfRange
  /-- Something follows the moment. -/
  | trailing
  deriving DecidableEq

/-- What messages say about a fault. -/
def Fault.message : Fault → String
  | premature => "premature end of input"
  | invalid => "input contains invalid characters"
  | outOfRange => "input is out of range"
  | trailing => "trailing input"

/-- Read the character `c`. -/
def literal (c : Char) : List Char → Except Fault (List Char)
  | [] => .error .premature
  | d :: rest => if d = c then .ok rest else .error .invalid

/-- Read a numeral of one to `most` digits, as long as there are digits. -/
def numeral (most : Nat) (s : List Char) : Except Fault (Nat × List Char) :=
  match s with
  | [] => .error .premature
  | c :: _ =>
    if Numeral.isDecimal c then
      let digits := (s.take most).takeWhile Numeral.isDecimal
      .ok ((Numeral.ofDigits? 10 digits).getD 0, s.drop digits.length)
    else .error .invalid

/-- Read a number of one or two digits between `low` and `high`. -/
def field (low high : Nat) (s : List Char) : Except Fault (Nat × List Char) := do
  let (n, rest) ← numeral 2 (Text.skipBlank s)
  if low ≤ n ∧ n ≤ high then .ok (n, rest) else .error .outOfRange

/-- Read a year: behind a sign any number of digits, otherwise at most four. A year that does
not fit 32 bits is refused at once. -/
def readYear (s : List Char) : Except Fault (Int × List Char) := do
  let (year, rest) ← match Text.skipBlank s with
    | '-' :: digits => do
      let (n, rest) ← numeral digits.length digits
      .ok (-(n : Int), rest)
    | '+' :: digits => do
      let (n, rest) ← numeral digits.length digits
      .ok ((n : Int), rest)
    | digits => do
      let (n, rest) ← numeral 4 digits
      .ok ((n : Int), rest)
  if -2147483648 ≤ year ∧ year ≤ 2147483647 then .ok (year, rest) else .error .outOfRange

/-- Read the microseconds: nothing, or a point and six digits. Fewer than six bytes behind the
point end too early, whatever they are. -/
def readMicro : List Char → Except Fault (Nat × List Char)
  | '.' :: rest =>
    if Text.bytes rest < 6 then .error .premature
    else match Numeral.ofDigits? 10 (rest.take 6) with
      | some n => .ok (n, rest.drop 6)
      | none => .error .invalid
  | s => .ok (0, s)

/-- The moment that `s` denotes. The second 60 is the leap second after the second 59. -/
def read (s : List Char) : Except Fault Moment := do
  let (year, s) ← readYear s
  let s ← literal '-' s
  let (month, s) ← field 1 12 s
  let s ← literal '-' s
  let (day, s) ← field 1 31 s
  let s ← literal 'T' s
  let (hour, s) ← field 0 23 s
  let s ← literal ':' s
  let (minute, s) ← field 0 59 s
  let s ← literal ':' s
  let (second, s) ← field 0 60 s
  let (micro, s) ← readMicro s
  if s.isEmpty then
    let leap := if second = 60 then 1000000 else 0
    match ofFields? year month day hour minute (min second 59) (leap + micro) with
    | some m => .ok m
    | none => .error .outOfRange
  else .error .trailing

end Propagation.Moment
