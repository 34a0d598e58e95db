import Propagation.Json.Token

/-!
# Writing JSON

A value is written either without any blanks, or spread over lines: each item and each member
on a line of its own, two spaces deeper than what it belongs to.

## Main definitions

* `Json.compact`: without blanks.
* `Json.pretty`: spread over lines.
-/

namespace Propagation.Json

mutual

/-- The tokens of a value, as `Json.ofTokens?` reads them. -/
def tokens : Json → List Token
  | scalar (.str s) => [.str (some s)]
  | scalar .illegible => [.str none]
  | scalar s => [.scalar s]
  | arr [] => [.openArray, .closeArray]
  | arr (j :: rest) => .openArray :: j.tokens ++ itemTokens rest ++ [.closeArray]
  | obj [] => [.openObject, .closeObject]
  | obj ((name, j) :: rest) =>
    .openObject :: .str (some name) :: .colon :: j.tokens ++ memberTokens rest ++ [.closeObject]

/-- The tokens of the items after the first. -/
def itemTokens : List Json → List Token
  | [] => []
  | j :: rest => .comma :: j.tokens ++ itemTokens rest

/-- The tokens of the members after the first. -/
def memberTokens : List (String × Json) → List Token
  | [] => []
  | (name, j) :: rest => .comma :: .str (some name) :: .colon :: j.tokens ++ memberTokens rest

end

/-- The value without blanks. -/
def compact (j : Json) : String := String.ofList (j.tokens.flatMap Token.chars)

/-- The start of a line that is indented `depth` times. -/
def newline (depth : Nat) : List Char := '\n' :: List.replicate (2 * depth) ' '

mutual

/-- The characters of a value inside `depth` others, spread over lines. -/
def prettyChars (depth : Nat) : Json → List Char
  | scalar s => (scalar s).tokens.flatMap Token.chars
  | arr [] => ['[', ']']
  | arr (j :: rest) =>
    '[' :: newline (depth + 1) ++ prettyChars (depth + 1) j ++ prettyItems (depth + 1) rest ++
      newline depth ++ [']']
  | obj [] => ['\x7b', '\x7d']
  | obj ((name, j) :: rest) =>
    '\x7b' :: newline (depth + 1) ++ Token.strChars (some name) ++ ':' :: ' ' ::
      prettyChars (depth + 1) j ++ prettyMembers (depth + 1) rest ++ newline depth ++ ['\x7d']

/-- The characters of the items after the first. -/
def prettyItems (depth : Nat) : List Json → List Char
  | [] => []
  | j :: rest => ',' :: newline depth ++ prettyChars depth j ++ prettyItems depth rest

/-- The characters of the members after the first. -/
def prettyMembers (depth : Nat) : List (String × Json) → List Char
  | [] => []
  | (name, j) :: rest =>
    ',' :: newline depth ++ Token.strChars (some name) ++ ':' :: ' ' :: prettyChars depth j ++
      prettyMembers depth rest

end

/-- The value spread over lines. -/
def pretty (j : Json) : String := String.ofList (prettyChars 0 j)

end Propagation.Json
