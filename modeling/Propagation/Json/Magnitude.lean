import Propagation.Text.Numeral

/-!
# How large a number may be

A number may be written with as many digits as one likes, but where it is looked at it has to be
one that a double can hold. Its size is found from its leading digits, as many as fit 64 bits,
and a power of ten: each of them is rounded to a double, and so is their product. Close to the
largest double these roundings decide, one way or the other.

## Main definitions

* `Magnitude`: leading digits and a power of ten.
* `Magnitude.ofDigits`: the magnitude of a written number.
* `Magnitude.isFinite`: whether a double can hold it.

## Main statements

* `Magnitude.fill_of_extend?`: a whole number of 64 bits is made of leading digits only.
-/

namespace Propagation

/-- The size of a number. -/
structure Magnitude where
  /-- The leading digits, as a number of at most 64 bits. -/
  significand : Nat
  /-- The power of ten that they are multiplied by. -/
  exponent : Int
  deriving DecidableEq

namespace Magnitude

/-- Digits that follow the leading digits `start`: these digits with as many more as fit, and how
many are left over. -/
def fill (start : Nat) : List Char → Nat × Nat
  | [] => (start, 0)
  | c :: rest =>
    let next := start * 10 + (Numeral.digitValue? 10 c).getD 0
    if next < UInt64.size then fill next rest else (start, rest.length + 1)

/-- The magnitude of a number that is written with the digits `whole` before the point, the
digits `fraction` behind it, and an exponent. Whole digits that are left over count as tens. -/
def ofDigits (whole fraction : List Char) (exponent : Int) : Magnitude :=
  let (leading, dropped) := fill 0 whole
  let (significand, unused) := fill leading fraction
  ⟨significand, dropped - (fraction.length - unused) + exponent⟩

/-- Whether a double can hold the number. -/
def isFinite (m : Magnitude) : Bool :=
  m.significand = 0 || m.exponent ≤ 0 || (m.exponent ≤ 308 &&
    (Float.ofNat m.significand * Float.ofScientific 1 false m.exponent.toNat).isFinite)

/-- A number of less than `UInt64.size` is made of leading digits only: `fill` takes them all. -/
theorem fill_of_extend? {start n : Nat} {s : List Char}
    (h : Numeral.extend? 10 start s = some n) (hn : n < UInt64.size) : fill start s = (n, 0) := by
  induction s generalizing start with
  | nil => simp [fill, Option.some.inj h]
  | cons c s ih =>
    obtain ⟨d, hd, hs⟩ := Option.bind_eq_some_iff.1 h
    have := Numeral.le_of_extend? hs
    simp only [fill, hd, Option.getD_some]
    rw [if_pos (by omega)]
    exact ih hs

end Magnitude

end Propagation
