import Propagation.Id.Basic
import Propagation.Text.Numeral

/-!
# The written form of an identifier

An identifier has 32 hexadecimal digits. Messages show them in one run; records carry them in
five groups joined by hyphens. Reading is more liberal: it takes either form, the grouped one
also in braces or behind `urn:uuid:`, and letters of either case.

## Main definitions

* `Id.text`: the 32 digits.
* `Id.short`: the first six of them, which stand for a record in its label.
* `Id.hyphenated`: the grouped form.
* `Id.ofText?`: the identifier that a text denotes.
-/

namespace Propagation.Id

variable {e : Entity}

/-- The 32 hexadecimal digits of the identifier. -/
def hex (i : Id e) : List Char := Numeral.fixed 16 32 i.number

/-- The identifier as messages show it. -/
def text (i : Id e) : String := String.ofList i.hex

/-- The first six digits of `hex`. -/
def short (i : Id e) : String := String.ofList (i.hex.take 6)

/-- The widths of the groups of digits in `hyphenated`. -/
def groups : List Nat := [8, 4, 4, 4, 12]

/-- Cut `s` into groups of the given widths, with a hyphen between any two. -/
def hyphenate : List Nat → List Char → List Char
  | [], _ => []
  | [w], s => s.take w
  | w :: widths, s => s.take w ++ '-' :: hyphenate widths (s.drop w)

/-- The characters of the groups of `s`, which have the given widths and are joined by hyphens. -/
def ungroup? : List Nat → List Char → Option (List Char)
  | [], _ => none
  | [w], s => if s.length = w then some s else none
  | w :: widths, s =>
    match s.drop w with
    | '-' :: rest => (ungroup? widths rest).map (s.take w ++ ·)
    | _ => none

/-- The identifier as records carry it. -/
def hyphenated (i : Id e) : String := String.ofList (hyphenate groups i.hex)

/-- The digits of an identifier that is written as `s`, without the marks around and between them.
-/
def bare? (s : List Char) : Option (List Char) :=
  if s.length = 32 then some s
  else match s with
    | '\x7b' :: rest =>
      if rest.getLast? = some '\x7d' then ungroup? groups rest.dropLast else none
    | _ =>
      if (s.take 9).map Char.toLower = "urn:uuid:".toList then ungroup? groups (s.drop 9)
      else ungroup? groups s

/-- The identifier that `s` denotes. -/
def ofText? (s : String) : Option (Id e) := do
  let digits ← bare? s.toList
  let n ← Numeral.ofDigits? 16 digits
  return ⟨BitVec.ofNat 128 n⟩

end Propagation.Id
