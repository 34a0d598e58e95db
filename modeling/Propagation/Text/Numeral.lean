/-!
# Numerals

Natural numbers in positional notation, in any base up to sixteen. Letters are written in
lower case and read in either case.

## Main definitions

* `Numeral.digits`: the shortest numeral of a number, `Numeral.decimal` in base ten as a text.
* `Numeral.fixed`: the last so many digits of a number, with leading zeros.
* `Numeral.padded`: the decimal numeral, filled up with zeros to a least width.
* `Numeral.ofDigits?`: the number that a text of digits denotes.
-/

namespace Propagation.Numeral

/-- The digit that stands for `n`. -/
def digit (n : Nat) : Char := Nat.digitChar n

/-- What a digit of `base` stands for. -/
def digitValue? (base : Nat) (c : Char) : Option Nat :=
  let value :=
    if '0' ≤ c ∧ c ≤ '9' then some (c.toNat - 48)
    else if 'a' ≤ c ∧ c ≤ 'f' then some (c.toNat - 87)
    else if 'A' ≤ c ∧ c ≤ 'F' then some (c.toNat - 55)
    else none
  value.filter (· < base)

/-- Whether `c` is one of the ten decimal digits of ASCII. -/
def isDecimal (c : Char) : Bool := (digitValue? 10 c).isSome

/-- The shortest numeral of `n` in `base`. -/
def digits (base n : Nat) : List Char :=
  if 2 ≤ base ∧ base ≤ n then digits base (n / base) ++ [digit (n % base)]
  else [digit n]
termination_by n
decreasing_by exact Nat.div_lt_self (by omega) (by omega)

/-- The decimal numeral of `n`, as messages show it. -/
def decimal (n : Nat) : String := String.ofList (digits 10 n)

/-- The last `width` digits of `n` in `base`. -/
def fixed (base : Nat) : Nat → Nat → List Char
  | 0, _ => []
  | width + 1, n => fixed base width (n / base) ++ [digit (n % base)]

/-- The decimal numeral of `n`, filled up with zeros to at least `width` digits. -/
def padded (width n : Nat) : List Char :=
  List.replicate (width - (digits 10 n).length) '0' ++ digits 10 n

/-- Digits that follow a numeral of value `start`, read one after the other. -/
def extend? (base start : Nat) : List Char → Option Nat
  | [] => some start
  | c :: rest => do
    let d ← digitValue? base c
    extend? base (start * base + d) rest

/-- The number that the digits `s` denote to the `base`; the empty text denotes zero. -/
def ofDigits? (base : Nat) (s : List Char) : Option Nat := extend? base 0 s

/-- To read on from `start` never makes a number smaller. -/
theorem le_of_extend? {start n : Nat} {s : List Char} (h : extend? 10 start s = some n) :
    start ≤ n := by
  induction s generalizing start with
  | nil => exact Nat.le_of_eq (Option.some.inj h)
  | cons c s ih =>
    obtain ⟨d, -, hn⟩ := Option.bind_eq_some_iff.1 h
    have := ih hn
    omega

end Propagation.Numeral
