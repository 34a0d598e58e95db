import Propagation.Json.Basic
import Propagation.Json.Magnitude

/-!
# JSON tokens

A JSON text is a sequence of tokens with blanks between them. Only four characters count as
blank.

## Main definitions

* `Token`: a token.
* `Token.chars`: the shortest text of a token.
* `Token.next?`: the token that a text starts with.
* `Token.ofChars?`: the tokens of a text.
-/

namespace Propagation

/-- A token of a JSON text. -/
inductive Token
  | openObject
  | closeObject
  | openArray
  | closeArray
  | comma
  | colon
  /-- A string, or nothing if it can not be represented. -/
  | str (s : Option String)
  /-- A scalar that is not a string. -/
  | scalar (s : Scalar)
  deriving DecidableEq

namespace Token

/-! ## Writing -/

/-- A character of a string, as it is written. -/
def escape (c : Char) : List Char :=
  match c with
  | '"' => ['\\', '"']
  | '\\' => ['\\', '\\']
  | '\x08' => ['\\', 'b']
  | '\x0c' => ['\\', 'f']
  | '\n' => ['\\', 'n']
  | '\r' => ['\\', 'r']
  | '\t' => ['\\', 't']
  | c => if c.toNat < 32 then ['\\', 'u'] ++ Numeral.fixed 16 4 c.toNat else [c]

/-- An integer, as it is written. -/
def intChars (n : Int) : List Char :=
  if n < 0 then '-' :: Numeral.digits 10 n.natAbs else Numeral.digits 10 n.natAbs

/-- A string, as it is written. One that can not be represented is half of a surrogate pair. -/
def strChars : Option String → List Char
  | some s => '"' :: s.toList.flatMap escape ++ ['"']
  | none => ['"', '\\', 'u', 'd', '8', '0', '0', '"']

/-- A scalar, as it is written. -/
def scalarChars : Scalar → List Char
  | .null => ['n', 'u', 'l', 'l']
  | .bool true => ['t', 'r', 'u', 'e']
  | .bool false => ['f', 'a', 'l', 's', 'e']
  | .int n => intChars n
  | .real mantissa exponent => intChars mantissa ++ 'e' :: intChars exponent
  | .str s => strChars (some s)
  | .illegible => strChars none

/-- The shortest text of a token. -/
def chars : Token → List Char
  | openObject => ['\x7b']
  | closeObject => ['\x7d']
  | openArray => ['[']
  | closeArray => [']']
  | comma => [',']
  | colon => [':']
  | str s => strChars s
  | scalar s => scalarChars s

/-! ## Strings -/

/-- A part of a written string. -/
inductive Piece
  /-- A character, written as itself or by a short escape. -/
  | char (c : Char)
  /-- A unit of sixteen bits, written by its number. -/
  | unit (n : Nat)

/-- The character that a short escape stands for. -/
def unescape? : Char → Option Char
  | '"' => some '"'
  | '\\' => some '\\'
  | '/' => some '/'
  | 'b' => some '\x08'
  | 'f' => some '\x0c'
  | 'n' => some '\n'
  | 'r' => some '\r'
  | 't' => some '\t'
  | _ => none

/-- Put a piece before those that were read after it. -/
def withPiece (p : Piece) : Option (List Piece × List Char) → Option (List Piece × List Char)
  | some (ps, rest) => some (p :: ps, rest)
  | none => none

theorem withPiece_eq_some {p : Piece} {found : Option (List Piece × List Char)}
    {ps : List Piece} {rest : List Char} :
    withPiece p found = some (ps, rest) ↔ ∃ qs, found = some (qs, rest) ∧ ps = p :: qs := by
  rcases found with _ | ⟨qs, r⟩ <;> simp [withPiece]
  grind

/-- The pieces up to the closing quote, and what comes after it. Controls are not allowed. -/
def pieces? : List Char → Option (List Piece × List Char)
  | [] => none
  | '"' :: rest => some ([], rest)
  | '\\' :: 'u' :: a :: b :: c :: d :: rest =>
    match Numeral.ofDigits? 16 [a, b, c, d] with
    | some n => withPiece (.unit n) (pieces? rest)
    | none => none
  | '\\' :: c :: rest =>
    match unescape? c with
    | some c => withPiece (.char c) (pieces? rest)
    | none => none
  | c :: rest => if c.toNat < 32 || c = '\\' then none else withPiece (.char c) (pieces? rest)

/-- Whether a unit is the first of a surrogate pair. -/
def isHigh (n : Nat) : Bool := 0xd800 ≤ n && n < 0xdc00

/-- Whether a unit is the second of a surrogate pair. -/
def isLow (n : Nat) : Bool := 0xdc00 ≤ n && n < 0xe000

/-- The characters of the pieces. A surrogate that has no other half has no character. -/
def join? : List Piece → Option (List Char)
  | [] => some []
  | .char c :: rest => (join? rest).map (c :: ·)
  | .unit m :: .unit n :: rest =>
    if isHigh m && isLow n then
      (join? rest).map (Char.ofNat (0x10000 + (m - 0xd800) * 0x400 + (n - 0xdc00)) :: ·)
    else if isHigh m || isLow m then none
    else (join? (.unit n :: rest)).map (Char.ofNat m :: ·)
  | .unit m :: rest =>
    if isHigh m || isLow m then none else (join? rest).map (Char.ofNat m :: ·)

/-! ## Numbers -/

/-- Whether a character may be part of a number. -/
def isNumeric (c : Char) : Bool :=
  Numeral.isDecimal c || c = '-' || c = '+' || c = '.' || c = 'e' || c = 'E'

/-- The scalar `s`, if a double can hold a number of this size. -/
def within (m : Magnitude) (s : Scalar) : Scalar := if m.isFinite then s else .illegible

/-- A number without fraction and exponent. Minus zero is not an integer. -/
def whole (negative : Bool) (n : Nat) : Scalar :=
  if negative then if n = 0 then .real 0 0 else .int (-(n : Int)) else .int n

/-- The exponent that a number ends with: nothing stands for zero. -/
def exponent? : List Char → Option Int
  | [] => some 0
  | e :: rest =>
    if e = 'e' || e = 'E' then
      match rest with
      | '-' :: digits => if digits.isEmpty then none else (Numeral.ofDigits? 10 digits).map (-·)
      | '+' :: digits => if digits.isEmpty then none else (Numeral.ofDigits? 10 digits).map (·)
      | digits => if digits.isEmpty then none else (Numeral.ofDigits? 10 digits).map (·)
    else none

/-- The number that digits before the point, and what follows them, denote. -/
def fraction? (negative : Bool) (front rest : List Char) : Option Scalar := do
  let (digits, rest) ← match rest with
    | '.' :: rest =>
      let digits := rest.takeWhile Numeral.isDecimal
      if digits.isEmpty then none else some (digits, rest.dropWhile Numeral.isDecimal)
    | rest => some ([], rest)
  let mantissa ← Numeral.ofDigits? 10 (front ++ digits)
  let exponent ← exponent? rest
  return within (.ofDigits front digits exponent)
    (.real (if negative then -(mantissa : Int) else mantissa) (exponent - digits.length))

/-- The number without its sign. It has no zeros in front. -/
def unsigned? (negative : Bool) (s : List Char) : Option Scalar :=
  let rest := s.dropWhile Numeral.isDecimal
  match s.takeWhile Numeral.isDecimal with
  | [] => none
  | '0' :: _ :: _ => none
  | front =>
    if rest.isEmpty then
      (Numeral.ofDigits? 10 front).map fun n => within (.ofDigits front [] 0) (whole negative n)
    else fraction? negative front rest

/-- The number that a text denotes. -/
def number? : List Char → Option Scalar
  | '-' :: s => unsigned? true s
  | s => unsigned? false s

/-! ## Reading -/

/-- Whether a character may stand between tokens. -/
def isBlank (c : Char) : Bool := c = ' ' || c = '\t' || c = '\n' || c = '\r'

/-- The number that a text starts with, as a token, and what follows it. -/
def scanNumber? (s : List Char) : Option (Token × List Char) :=
  match number? (s.takeWhile isNumeric) with
  | some n => some (scalar n, s.dropWhile isNumeric)
  | none => none

/-- The string whose opening quote has been read, as a token, and what follows it. -/
def scanString? (s : List Char) : Option (Token × List Char) :=
  match pieces? s with
  | some (ps, rest) => some (str ((join? ps).map String.ofList), rest)
  | none => none

/-- The token that a text starts with, and what follows it. -/
def next? : List Char → Option (Token × List Char)
  | '\x7b' :: rest => some (openObject, rest)
  | '\x7d' :: rest => some (closeObject, rest)
  | '[' :: rest => some (openArray, rest)
  | ']' :: rest => some (closeArray, rest)
  | ',' :: rest => some (comma, rest)
  | ':' :: rest => some (colon, rest)
  | '"' :: rest => scanString? rest
  | 'n' :: 'u' :: 'l' :: 'l' :: rest => some (scalar .null, rest)
  | 't' :: 'r' :: 'u' :: 'e' :: rest => some (scalar (.bool true), rest)
  | 'f' :: 'a' :: 'l' :: 's' :: 'e' :: rest => some (scalar (.bool false), rest)
  | s => scanNumber? s

theorem length_pieces? {s : List Char} {ps : List Piece} {rest : List Char}
    (h : pieces? s = some (ps, rest)) : rest.length < s.length := by
  fun_induction pieces? s generalizing ps rest <;>
    simp_all only [withPiece_eq_some, List.length_cons, Option.some.injEq, Prod.mk.injEq,
      reduceCtorEq]
  all_goals grind

theorem length_dropWhile_lt {p : Char → Bool} {s : List Char} (h : s.takeWhile p ≠ []) :
    (s.dropWhile p).length < s.length := by
  have := congrArg List.length (@List.takeWhile_append_dropWhile _ p s)
  have := List.length_pos_iff.2 h
  simp only [List.length_append] at *
  omega

theorem length_scanNumber? {s : List Char} {t : Token} {rest : List Char}
    (h : scanNumber? s = some (t, rest)) : rest.length < s.length := by
  unfold scanNumber? at h
  split at h
  · rename_i n hn
    have : s.takeWhile isNumeric ≠ [] := by
      intro he
      simp [he, number?, unsigned?] at hn
    have := length_dropWhile_lt this
    grind
  · simp at h

theorem length_scanString? {s : List Char} {t : Token} {rest : List Char}
    (h : scanString? s = some (t, rest)) : rest.length < s.length := by
  unfold scanString? at h
  split at h
  · rename_i ps r hp
    have := length_pieces? hp
    grind
  · simp at h

theorem length_next? {s : List Char} {t : Token} {rest : List Char}
    (h : next? s = some (t, rest)) : rest.length < s.length := by
  unfold next? at h
  split at h
  case h_7 =>
    have := length_scanString? h
    grind
  case h_11 => exact length_scanNumber? h
  all_goals grind

/-- The tokens of a text. -/
def ofChars? (s : List Char) : Option (List Token) :=
  if (s.dropWhile isBlank).isEmpty then some []
  else match _h : next? (s.dropWhile isBlank) with
    | some (t, rest) => (ofChars? rest).map (t :: ·)
    | none => none
termination_by s.length
decreasing_by
  have := length_next? _h
  have := (@List.dropWhile_suffix _ s isBlank).length_le
  omega

end Token

end Propagation
