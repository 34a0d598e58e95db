import Propagation.Json.Printer
import Propagation.Text.Numeral.Lemmas
import Mathlib.Data.List.Chain

/-!
# Reading tokens back

The text of some tokens, with blanks between them or without, is read as the tokens it was made of.
Strings and names end with a mark of their own. The end of a number has none, so that what follows a
number must not look like a part of it.

A number is read as it was written if it has no more than 64 bits. A string is, whatever its
characters: those that mean something in a string and those that may not stand in one are escaped.

## Main definitions

* `Token.isExact`: a token that is read as it was written.
* `Token.Joins`: tokens that may follow each other without a blank.
* `Token.Layout`: a text made of some tokens and blanks.

## Main statements

* `Token.pieces?_escape`, `Token.scanString?_strChars`: characters and strings are read back.
* `Token.number?_intChars`: integers are read back.
* `Token.next?_chars`: every exact token is read back.
* `Token.Layout.ofChars?_eq`: so is every text made of exact tokens.
-/

namespace Propagation

/-- The numeral of a number `n` that is not zero does not start with a zero. -/
theorem Numeral.head?_digits {n : Nat} (hn : 0 < n) : (digits 10 n).head? ≠ some '0' := by
  fun_induction digits 10 n with
  | case1 n h ih =>
    rw [List.head?_append_of_ne_nil _ (digits_ne_nil 10 _)]
    exact ih (Nat.div_pos h.2 (by omega))
  | case2 n h =>
    have hdigit : ∀ d < 10, 0 < d → [digit d].head? ≠ some '0' := by decide
    exact hdigit n (by omega) hn

namespace Token

open Numeral (digits isDecimal)

/-! ## Strings -/

/-- A character `c` of a string is written in one of three ways. -/
theorem escape_cases (c : Char) :
    (∃ d, escape c = ['\\', d] ∧ unescape? d = some c ∧ d ≠ 'u') ∨
      (c.toNat < 32 ∧ escape c = '\\' :: 'u' :: Numeral.fixed 16 4 c.toNat) ∨
      (escape c = [c] ∧ 32 ≤ c.toNat ∧ c ≠ '"' ∧ c ≠ '\\') := by
  unfold escape
  split
  · exact .inl ⟨'"', rfl, rfl, by decide⟩
  · exact .inl ⟨'\\', rfl, rfl, by decide⟩
  · exact .inl ⟨'b', rfl, rfl, by decide⟩
  · exact .inl ⟨'f', rfl, rfl, by decide⟩
  · exact .inl ⟨'n', rfl, rfl, by decide⟩
  · exact .inl ⟨'r', rfl, rfl, by decide⟩
  · exact .inl ⟨'t', rfl, rfl, by decide⟩
  · rename_i hquote hslash _ _ _ _ _
    split
    · rename_i hc
      exact .inr (.inl ⟨hc, rfl⟩)
    · exact .inr (.inr ⟨rfl, by omega, hquote, hslash⟩)

theorem pieces?_short {c d : Char} (hc : unescape? d = some c) (hd : d ≠ 'u') (rest : List Char) :
    pieces? ('\\' :: d :: rest) = withPiece (.char c) (pieces? rest) := by
  rw [pieces?]
  · simp [hc]
  all_goals simp_all

theorem pieces?_unit {n : Nat} (hn : n < 16 ^ 4) (rest : List Char) :
    pieces? ('\\' :: 'u' :: Numeral.fixed 16 4 n ++ rest) = withPiece (.unit n) (pieces? rest) := by
  have hvalue := Numeral.ofDigits?_fixed (show 2 ≤ 16 by omega) (by omega) 4 n
  have hlength := Numeral.length_fixed 16 4 n
  rw [Nat.mod_eq_of_lt hn] at hvalue
  generalize Numeral.fixed 16 4 n = ds at hvalue hlength ⊢
  match ds, hlength with
  | [a, b, c, d], _ => simp [pieces?, hvalue]

theorem pieces?_char {c : Char} (hc : 32 ≤ c.toNat) (hquote : c ≠ '"') (hslash : c ≠ '\\')
    (rest : List Char) : pieces? (c :: rest) = withPiece (.char c) (pieces? rest) := by
  rw [pieces?]
  · have hcontrol : ¬ c.toNat < 32 := by omega
    simp [hslash, hcontrol]
  all_goals simp_all

/-- The unit of a control `c` is a character by itself, whatever comes after it. -/
theorem join?_unit {c : Char} (hc : c.toNat < 32) (ps : List Piece) :
    join? (.unit c.toNat :: ps) = (join? ps).map (c :: ·) := by
  have hhigh : isHigh c.toNat = false := by simp [isHigh]; omega
  have hlow : isLow c.toNat = false := by simp [isLow]; omega
  rcases ps with _ | ⟨_ | _, ps⟩ <;> simp [join?, hhigh, hlow]

/-- A character `c` of a string is read as it was written. -/
theorem pieces?_escape (c : Char) :
    ∃ p, (∀ rest, pieces? (escape c ++ rest) = withPiece p (pieces? rest)) ∧
      ∀ ps, join? (p :: ps) = (join? ps).map (c :: ·) := by
  rcases escape_cases c with ⟨d, hd, hc, hu⟩ | ⟨hc, hu⟩ | ⟨hc, hcontrol, hquote, hslash⟩
  · exact ⟨.char c, fun rest => by rw [hd]; exact pieces?_short hc hu rest, fun _ => rfl⟩
  · exact ⟨.unit c.toNat, fun rest => by rw [hu]; exact pieces?_unit (by omega) rest,
      join?_unit hc⟩
  · exact ⟨.char c, fun rest => by rw [hc]; exact pieces?_char hcontrol hquote hslash rest,
      fun _ => rfl⟩

/-- The characters `cs` of a string are read up to the quote that ends it. -/
theorem pieces?_escapes (cs rest : List Char) :
    ∃ ps, pieces? (cs.flatMap escape ++ '"' :: rest) = some (ps, rest) ∧ join? ps = some cs := by
  induction cs with
  | nil => exact ⟨[], by simp [pieces?], rfl⟩
  | cons c cs ih =>
    obtain ⟨ps, hpieces, hjoin⟩ := ih
    obtain ⟨p, hp, hc⟩ := pieces?_escape c
    refine ⟨p :: ps, ?_, by rw [hc, hjoin, Option.map_some]⟩
    rw [List.flatMap_cons, List.append_assoc, hp, hpieces, withPiece]

theorem scanString?_strChars (s : String) (rest : List Char) :
    scanString? (s.toList.flatMap escape ++ '"' :: rest) = some (str (some s), rest) := by
  obtain ⟨ps, hpieces, hjoin⟩ := pieces?_escapes s.toList rest
  simp only [scanString?, hpieces, hjoin, Option.map_some, String.ofList_toList]

/-! ## Numbers -/

/-- A numeral of at most 64 bits denotes its number `n`, which a double can hold. -/
theorem unsigned?_digits (negative : Bool) {n : Nat} (hn : n < UInt64.size) :
    unsigned? negative (digits 10 n) = some (whole negative n) := by
  have hdecimal : ∀ c ∈ digits 10 n, isDecimal c = true :=
    fun c hc => Numeral.isDecimal_of_mem_digits hc
  have htake : (digits 10 n).takeWhile isDecimal = digits 10 n :=
    List.takeWhile_eq_self_iff.2 hdecimal
  have hdrop : (digits 10 n).dropWhile isDecimal = [] := List.dropWhile_eq_nil_iff.2 hdecimal
  have hvalue := Numeral.ofDigits?_digits (show 2 ≤ 10 by omega) (by omega) n
  have hfinite : (Magnitude.ofDigits (digits 10 n) [] 0).isFinite := by
    simp [Magnitude.isFinite, Magnitude.ofDigits, Magnitude.fill_of_extend? hvalue hn,
      Magnitude.fill]
  rw [unsigned?, htake, hdrop]
  split
  · rename_i hnil
    exact absurd hnil (Numeral.digits_ne_nil 10 n)
  · rename_i c s hzero
    rcases Nat.eq_zero_or_pos n with rfl | hpos
    · rw [digits] at hzero
      cases hzero
    · exact absurd (congrArg List.head? hzero) (Numeral.head?_digits hpos)
  · simp only [List.isEmpty_nil, if_true, hvalue, Option.map_some, within, hfinite]

theorem number?_intChars {n : Int} (hn : n.natAbs < UInt64.size) :
    number? (intChars n) = some (.int n) := by
  rw [intChars]
  split
  · rename_i hneg
    rw [number?, unsigned?_digits true hn, whole, if_pos rfl, if_neg (by omega)]
    congr
    omega
  · have hunsigned : number? (digits 10 n.natAbs) = unsigned? false (digits 10 n.natAbs) := by
      rw [number?]
      intro s hs
      have hminus := Numeral.isDecimal_of_mem_digits (n := n.natAbs) (hs ▸ List.mem_cons_self)
      revert hminus
      decide
    rw [hunsigned, unsigned?_digits false hn, whole, if_neg Bool.false_ne_true]
    congr
    omega

/-- The text `rest` does not go on with a part of a number. -/
def Free (rest : List Char) : Prop := ∀ c ∈ rest.head?, isNumeric c = false

theorem takeWhile_append_of_free {p : Char → Bool} {s rest : List Char} (hs : ∀ c ∈ s, p c = true)
    (hrest : ∀ c ∈ rest.head?, p c = false) :
    (s ++ rest).takeWhile p = s ∧ (s ++ rest).dropWhile p = rest := by
  rw [List.takeWhile_append_of_pos hs, List.dropWhile_append_of_pos hs]
  cases rest with
  | nil => simp
  | cons c rest => simp [hrest c rfl]

theorem isNumeric_of_mem_intChars {n : Int} {c : Char} (hc : c ∈ intChars n) :
    isDecimal c = true ∨ c = '-' := by
  rw [intChars] at hc
  split at hc
  · rcases List.mem_cons.1 hc with rfl | hc
    · exact .inr rfl
    · exact .inl (Numeral.isDecimal_of_mem_digits hc)
  · exact .inl (Numeral.isDecimal_of_mem_digits hc)

theorem scanNumber?_intChars {n : Int} (hn : n.natAbs < UInt64.size) {rest : List Char}
    (hrest : Free rest) : scanNumber? (intChars n ++ rest) = some (scalar (.int n), rest) := by
  have hnumeric : ∀ c ∈ intChars n, isNumeric c = true := fun c hc => by
    rcases isNumeric_of_mem_intChars hc with h | h <;> simp [isNumeric, h]
  obtain ⟨htake, hdrop⟩ := takeWhile_append_of_free hnumeric hrest
  rw [scanNumber?, htake, hdrop, number?_intChars hn]

theorem next?_numeric {c : Char} (hc : isDecimal c = true ∨ c = '-') (s : List Char) :
    next? (c :: s) = scanNumber? (c :: s) := by
  rw [next?]
  all_goals
    intro _ hs
    cases hs
    revert hc
    decide

/-! ## Tokens -/

/-- Whether a token is read as it was written. -/
def isExact : Token → Bool
  | str s => s.isSome
  | scalar .null | scalar (.bool _) => true
  | scalar (.int n) => n.natAbs < UInt64.size
  | scalar _ => false
  | _ => true

/-- Whether a token is a number. -/
def isInt : Token → Bool
  | scalar (.int _) => true
  | _ => false

theorem intChars_cons (n : Int) : ∃ c s, intChars n = c :: s := by
  rw [intChars]
  split
  · exact ⟨_, _, rfl⟩
  · exact List.exists_cons_of_ne_nil (Numeral.digits_ne_nil 10 _)

/-- A token `t` is read as it was written. -/
theorem next?_chars {t : Token} (ht : t.isExact) {rest : List Char} (hrest : t.isInt → Free rest) :
    next? (t.chars ++ rest) = some (t, rest) := by
  cases t with
  | str s =>
    obtain ⟨s, rfl⟩ := Option.isSome_iff_exists.1 ht
    simpa [chars, strChars, next?] using scanString?_strChars s rest
  | scalar s =>
    cases s with
    | null => rfl
    | bool b => cases b <;> rfl
    | int n =>
      have hn : n.natAbs < UInt64.size := of_decide_eq_true ht
      have hscan := scanNumber?_intChars hn (hrest rfl)
      obtain ⟨c, s, hc⟩ := intChars_cons n
      have hnumeric := isNumeric_of_mem_intChars (hc ▸ List.mem_cons_self : c ∈ intChars n)
      rw [hc] at hscan
      rw [chars, scalarChars, hc]
      exact (next?_numeric hnumeric (s ++ rest)).trans hscan
    | _ => cases ht
  | _ => rfl

theorem not_numeric_of_isBlank {c : Char} (hc : isBlank c = true) : isNumeric c = false := by
  simp only [isBlank, Bool.or_eq_true, decide_eq_true_eq] at hc
  rcases hc with ((rfl | rfl) | rfl) | rfl <;> decide

/-- No token starts with a blank. -/
theorem isBlank_chars {t : Token} (ht : t.isExact) :
    ∃ c s, t.chars = c :: s ∧ isBlank c = false := by
  cases t with
  | str s =>
    obtain ⟨s, rfl⟩ := Option.isSome_iff_exists.1 ht
    exact ⟨_, _, rfl, rfl⟩
  | scalar s =>
    cases s with
    | null => exact ⟨_, _, rfl, rfl⟩
    | bool b => cases b <;> exact ⟨_, _, rfl, rfl⟩
    | int n =>
      obtain ⟨c, s, hc⟩ := intChars_cons n
      refine ⟨c, s, hc, Bool.eq_false_iff.2 fun hblank => ?_⟩
      have hnumeric := not_numeric_of_isBlank hblank
      rcases isNumeric_of_mem_intChars (hc ▸ List.mem_cons_self : c ∈ intChars n) with h | h <;>
        simp [isNumeric, h] at hnumeric
    | _ => cases ht
  | _ => exact ⟨_, _, rfl, rfl⟩

/-! ## Texts -/

/-- The tokens `t` and `u` may follow each other without a blank: `u` does not go on with a number.
-/
def Joins (t u : Token) : Prop := t.isInt → Free u.chars

/-- A text made of some tokens, with blanks before, between and behind them. -/
inductive Layout : List Char → List Token → Prop
  | blank {s : List Char} (h : ∀ c ∈ s, isBlank c = true) : Layout s []
  | token {blanks rest : List Char} {t : Token} {ts : List Token}
    (hblanks : ∀ c ∈ blanks, isBlank c = true) (h : Layout rest ts) :
    Layout (blanks ++ t.chars ++ rest) (t :: ts)

theorem ofChars?_of_next? {s rest : List Char} {t : Token}
    (h : next? (s.dropWhile isBlank) = some (t, rest)) :
    ofChars? s = (ofChars? rest).map (t :: ·) := by
  have hne : (s.dropWhile isBlank).isEmpty = false := by
    cases hs : s.dropWhile isBlank with
    | nil => rw [hs] at h; cases h
    | cons c s => rfl
  rw [ofChars?, hne]
  simp only [Bool.false_eq_true, if_false]
  split
  · rename_i u rest' hu
    rw [h] at hu
    cases hu
    rfl
  · rename_i hu
    rw [h] at hu
    cases hu

namespace Layout

variable {s : List Char} {ts : List Token}

/-- What starts with a blank, or with a token that does not go on with a number, is `Free`. -/
theorem free (h : Layout s ts) (hexact : ∀ t ∈ ts, t.isExact)
    (hts : ∀ t ∈ ts.head?, Free t.chars) : Free s := by
  cases h with
  | blank h =>
    intro c hc
    exact not_numeric_of_isBlank (h c (List.mem_of_mem_head? hc))
  | @token blanks rest t ts hblanks h =>
    intro c hc
    cases blanks with
    | cons b blanks =>
      obtain rfl : b = c := Option.some.inj hc
      exact not_numeric_of_isBlank (hblanks b List.mem_cons_self)
    | nil =>
      obtain ⟨d, u, hd, -⟩ := isBlank_chars (hexact t List.mem_cons_self)
      have hfree := hts t rfl
      rw [hd] at hc hfree
      obtain rfl : d = c := Option.some.inj hc
      exact hfree d rfl

/-- A text `s` is read as the tokens `ts` that it was made of. -/
theorem ofChars?_eq (h : Layout s ts) (hexact : ∀ t ∈ ts, t.isExact)
    (hjoins : ts.IsChain Joins) : ofChars? s = some ts := by
  induction h with
  | @blank s h =>
    rw [ofChars?, List.dropWhile_eq_nil_iff.2 h]
    rfl
  | @token blanks rest t ts hblanks h ih =>
    obtain ⟨ht, hts⟩ := List.forall_mem_cons.1 hexact
    obtain ⟨hjoin, hjoins⟩ := List.isChain_cons.1 hjoins
    have hrest : t.isInt → Free rest := fun hint => h.free hts fun u hu => hjoin u hu hint
    obtain ⟨c, u, hc, hnonblank⟩ := isBlank_chars ht
    have hdrop : (blanks ++ t.chars ++ rest).dropWhile isBlank = t.chars ++ rest := by
      rw [List.append_assoc, List.dropWhile_append_of_pos hblanks, hc, List.cons_append,
        List.dropWhile_cons_of_neg (by simp [hnonblank])]
    rw [ofChars?_of_next? (hdrop ▸ next?_chars ht hrest), ih hts hjoins, Option.map_some]

end Layout

end Token

end Propagation
