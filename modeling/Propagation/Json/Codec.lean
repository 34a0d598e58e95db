import Propagation.Json.Printer
import Propagation.Json.Reader

/-!
# Values as JSON

How the values of a type are carried by JSON, and the rules that are common to many types. A
structure is an object with a member for each field; it may also be read from an array of its
fields. Members that are not asked for are skipped, a member that is there twice is refused, and
a field that may be absent is null. A choice is its name, or an object that gives a value to the
name.

## Main definitions

* `Json.Codec`: a way to write a type as JSON and to read it back.
* `Json.fields?`, `Json.someFields?`: the members of a structure.
* `Json.needed?`, `Json.optional?`, `Json.defaulted?`: what a member has to be.
* `Json.choice?`: the name and the value of a choice.
-/

namespace Propagation.Json

/-- A way to write the values of a type as JSON and to read them back. -/
class Codec (α : Type) where
  /-- The value as it is written. -/
  encode : α → Json
  /-- The value that is read. -/
  decode? : Json → Option α

export Codec (encode decode?)

variable {α : Type}

/-- The number below `limit` that a value denotes. -/
def nat? (limit : Nat) : Json → Option Nat
  | int n => if 0 ≤ n ∧ n < limit then some n.toNat else none
  | _ => none

instance : Codec String where
  encode := str
  decode?
    | str s => some s
    | _ => none

instance [Codec α] : Codec (Option α) where
  encode
    | some a => encode a
    | none => null
  decode?
    | null => some none
    | j => (decode? j).map some

/-! ## Structures -/

/-- The member called `name`, if there is one. It must not be there twice. -/
def member? (members : List (String × Json)) (name : String) : Option (Option Json) :=
  match members.filter (·.1 = name) with
  | [] => some none
  | [(_, j)] => some (some j)
  | _ => none

/-- The members of a structure with the fields `names`. An array has all of them. -/
def fields? (names : List String) : Json → Option (List (Option Json))
  | arr items => if items.length = names.length then some (items.map some) else none
  | obj members => names.mapM (member? members)
  | _ => none

/-- The members of a structure with the fields `names`, all of which have defaults. An array has the
first of them. -/
def someFields? (names : List String) : Json → Option (List (Option Json))
  | arr items =>
    if items.length ≤ names.length then
      some (items.map some ++ List.replicate (names.length - items.length) none)
    else none
  | obj members => names.mapM (member? members)
  | _ => none

/-- The value of a member that has to be there. -/
def needed? [Codec α] : Option Json → Option α
  | some j => decode? j
  | none => none

/-- The value of a member that may be absent: `none` inside, if it is. -/
def optional? [Codec α] : Option Json → Option (Option α)
  | some j => decode? j
  | none => some none

/-- The value of a member that `default` stands for where it is absent. -/
def defaulted? (read? : Json → Option α) (default : α) : Option Json → Option α
  | some j => read? j
  | none => some default

/-! ## Choices -/

/-- The name and the value of a choice. A bare name has the value `null`. -/
def choice? : Json → Option (String × Json)
  | str name => some (name, null)
  | obj [(name, j)] => some (name, j)
  | _ => none

/-- The value of a choice between names that stand for themselves. -/
def named? (names : List (String × α)) (j : Json) : Option α :=
  match choice? j with
  | some (name, null) => names.lookup name
  | _ => none

end Propagation.Json
