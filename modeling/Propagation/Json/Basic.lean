/-!
# JSON values

A JSON text is read into a value of this type whatever it is read for. What is well formed but
can not be represented, such as a string with half of a surrogate pair, is kept as an illegible
value: it does no harm where the value is skipped, and is refused where it is wanted.

## Main definitions

* `Scalar`: a value that contains no others.
* `Json`: a JSON value.
* `Json.depth`: how deep arrays and objects are nested in a value.
* `Json.isLegible`: whether no part of a value is illegible.
-/

namespace Propagation

/-- A JSON value that contains no others. -/
inductive Scalar
  | null
  | bool (b : Bool)
  /-- A number without fraction and exponent. -/
  | int (n : Int)
  /-- Any other number, in the range of a double: a mantissa times a power of ten. -/
  | real (mantissa exponent : Int)
  | str (s : String)
  /-- A value that can not be represented. -/
  | illegible
  deriving DecidableEq

/-- A JSON value. -/
inductive Json
  | scalar (s : Scalar)
  | arr (items : List Json)
  /-- The members stand in the order in which they were written, and may repeat a name. -/
  | obj (members : List (String × Json))

namespace Json

/-- The null value. -/
@[match_pattern] abbrev null : Json := scalar .null

instance : Inhabited Json := ⟨null⟩

/-- A truth value. -/
@[match_pattern] abbrev bool (b : Bool) : Json := scalar (.bool b)

/-- An integer. -/
@[match_pattern] abbrev int (n : Int) : Json := scalar (.int n)

/-- A string. -/
@[match_pattern] abbrev str (s : String) : Json := scalar (.str s)

mutual

/-- The number of arrays and objects around the innermost value. -/
def depth : Json → Nat
  | scalar _ => 0
  | arr items => depthOfItems items + 1
  | obj members => depthOfMembers members + 1

/-- The depth of the deepest item. -/
def depthOfItems : List Json → Nat
  | [] => 0
  | j :: rest => max j.depth (depthOfItems rest)

/-- The depth of the deepest member. -/
def depthOfMembers : List (String × Json) → Nat
  | [] => 0
  | (_, j) :: rest => max j.depth (depthOfMembers rest)

end

mutual

/-- Whether no part of the value is illegible. -/
def isLegible : Json → Bool
  | scalar s => s ≠ .illegible
  | arr items => itemsLegible items
  | obj members => membersLegible members

/-- Whether no item has an illegible part. -/
def itemsLegible : List Json → Bool
  | [] => true
  | j :: rest => j.isLegible && itemsLegible rest

/-- Whether no member has an illegible part. -/
def membersLegible : List (String × Json) → Bool
  | [] => true
  | (_, j) :: rest => j.isLegible && membersLegible rest

end

end Json

end Propagation
