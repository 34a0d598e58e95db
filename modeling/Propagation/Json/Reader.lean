import Propagation.Json.Token

/-!
# Reading JSON

The tokens of a text are taken in one after the other. Arrays and objects that have been opened
and not yet closed stand on a stack, so that a text may nest as deep as it likes; what the next
token may be depends on the top of the stack and on what came last.

## Main definitions

* `Json.Frame`: an array or object that has been opened.
* `Json.Reading`: what has been read so far.
* `Json.step`: take in one token.
* `Json.read?`: the value that a text denotes.
-/

namespace Propagation.Json

/-- The members of an object, the last first; nothing if the name of one can not be
represented. -/
abbrev Members := Option (List (String × Json))

/-- An array or object that has been opened and not yet closed. -/
inductive Frame
  /-- The items so far, the last first. -/
  | items (done : List Json)
  /-- The members so far, and the name of the next one. -/
  | member (done : Members) (name : Option String)

/-- What has been read, by what has to come next. -/
inductive Reading
  /-- A value. -/
  | value (outer : List Frame)
  /-- The first item of an array, or its end. -/
  | opened (outer : List Frame)
  /-- The first name of an object, or its end. -/
  | openedObject (outer : List Frame)
  /-- A name. -/
  | name (done : Members) (outer : List Frame)
  /-- The colon after a name. -/
  | colon (done : Members) (name : Option String) (outer : List Frame)
  /-- The comma after an item, or the end of the array. -/
  | moreItems (done : List Json) (outer : List Frame)
  /-- The comma after a member, or the end of the object. -/
  | moreMembers (done : Members) (outer : List Frame)
  /-- The end of the text. -/
  | done (j : Json)

/-- Add a member `j` called `name`. -/
def addMember (done : Members) (name : Option String) (j : Json) : Members :=
  match done, name with
  | some members, some name => some ((name, j) :: members)
  | _, _ => none

/-- The object with these members, or an illegible value if there is no name for one of them. -/
def ofMembers : Members → Json
  | some members => obj members.reverse
  | none => scalar .illegible

/-- Put the complete value `j` into the innermost frame. -/
def complete (j : Json) : List Frame → Reading
  | [] => .done j
  | .items done :: outer => .moreItems (j :: done) outer
  | .member done name :: outer => .moreMembers (addMember done name j) outer

/-- Begin a value with the token `t`. -/
def begin (t : Token) (outer : List Frame) : Option Reading :=
  match t with
  | .openObject => some (.openedObject outer)
  | .openArray => some (.opened outer)
  | .str (some s) => some (complete (str s) outer)
  | .str none => some (complete (scalar .illegible) outer)
  | .scalar s => some (complete (scalar s) outer)
  | _ => none

/-- Take in the token `t`, where it may come next. -/
def step (r : Reading) (t : Token) : Option Reading :=
  match r, t with
  | .value outer, t => begin t outer
  | .opened outer, .closeArray => some (complete (arr []) outer)
  | .opened outer, t => begin t (.items [] :: outer)
  | .openedObject outer, .closeObject => some (complete (obj []) outer)
  | .openedObject outer, .str name => some (.colon (some []) name outer)
  | .name done outer, .str name => some (.colon done name outer)
  | .colon done name outer, .colon => some (.value (.member done name :: outer))
  | .moreItems done outer, .comma => some (.value (.items done :: outer))
  | .moreItems done outer, .closeArray => some (complete (arr done.reverse) outer)
  | .moreMembers done outer, .comma => some (.name done outer)
  | .moreMembers done outer, .closeObject => some (complete (ofMembers done) outer)
  | _, _ => none

/-- The value that the tokens `ts` denote. -/
def ofTokens? (ts : List Token) : Option Json :=
  match ts.foldlM step (.value []) with
  | some (.done j) => some j
  | _ => none

/-- The value that the text `s` denotes. -/
def read? (s : String) : Option Json := do
  ofTokens? (← Token.ofChars? s.toList)

end Propagation.Json
