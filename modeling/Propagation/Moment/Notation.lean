import Propagation.Moment.Text
import Propagation.Text.Numeral.Lemmas

/-!
# Notations of a moment

A moment has many notations. Blanks may stand before every number, a number may have one digit or
two, a year may have a sign and, behind it, leading zeros, and the fraction of the second may be
missing. What is fixed are the marks between the numbers and the six digits of a fraction. Reading
finds the moment of a text exactly if the text is a notation of it: each number ends where its
digits do, since no mark is a digit.

## Main definitions

* `Numeral.Denotes`: digits and the number that they stand for.
* `Moment.FieldNotation`, `Moment.YearNotation`, `Moment.MicroNotation`, `Moment.SecondNotation`:
  the parts of a notation.
* `Moment.IsNotation`: the notations of a moment.

## Main statements

* `Moment.read_eq_ok_iff`: reading a text gives the moment that it is a notation of, and fails if
  there is none.
-/

namespace Propagation

/-- The digits `ds`, at least one, stand for the number `n`. -/
structure Numeral.Denotes (ds : List Char) (n : Nat) : Prop where
  ne_nil : ds ≠ []
  digits : ∀ c ∈ ds, Numeral.isDecimal c = true
  value : Numeral.ofDigits? 10 ds = some n

namespace Moment

/-- The text does not start with a digit. -/
def NoDigit (s : List Char) : Prop := ∀ c ∈ s.head?, Numeral.isDecimal c = false

theorem noDigit_cons {c : Char} {s : List Char} (h : Numeral.isDecimal c = false) :
    NoDigit (c :: s) := by
  intro d hd
  cases hd
  exact h

/-- Blanks, and a number of one or two digits. -/
inductive FieldNotation : List Char → Nat → Prop
  | mk {blanks ds : List Char} {n : Nat} (hb : ∀ c ∈ blanks, Text.isBlank c = true)
    (hd : Numeral.Denotes ds n) (hl : ds.length ≤ 2) : FieldNotation (blanks ++ ds) n

/-- Blanks, and a year: at most four digits, or any number of digits behind a sign. -/
inductive YearNotation : List Char → Int → Prop
  | plain {blanks ds : List Char} {n : Nat} (hb : ∀ c ∈ blanks, Text.isBlank c = true)
    (hd : Numeral.Denotes ds n) (hl : ds.length ≤ 4) : YearNotation (blanks ++ ds) n
  | plus {blanks ds : List Char} {n : Nat} (hb : ∀ c ∈ blanks, Text.isBlank c = true)
    (hd : Numeral.Denotes ds n) : YearNotation (blanks ++ '+' :: ds) n
  | minus {blanks ds : List Char} {n : Nat} (hb : ∀ c ∈ blanks, Text.isBlank c = true)
    (hd : Numeral.Denotes ds n) : YearNotation (blanks ++ '-' :: ds) (-n)

/-- Nothing, or a point and six digits. -/
inductive MicroNotation : List Char → Nat → Prop
  | whole : MicroNotation [] 0
  | fraction {ds : List Char} {n : Nat} (hd : Numeral.Denotes ds n) (hl : ds.length = 6) :
    MicroNotation ('.' :: ds) n

/-- A second with its fraction; the second 60 is the leap second after the second 59. -/
inductive SecondNotation : List Char → Nat → Nat → Prop
  | plain {second fraction : List Char} {n k : Nat} (hn : FieldNotation second n)
    (hk : MicroNotation fraction k) : SecondNotation (second ++ fraction) n k
  | leap {second fraction : List Char} {k : Nat} (hn : FieldNotation second 60)
    (hk : MicroNotation fraction k) : SecondNotation (second ++ fraction) 59 (1000000 + k)

/-- The text `s` is a notation of the moment `m`. -/
def IsNotation (s : List Char) (m : Moment) : Prop :=
  ∃ year month day hour minute second,
    YearNotation year m.year ∧ FieldNotation month m.month ∧ FieldNotation day m.day ∧
    FieldNotation hour m.hour ∧ FieldNotation minute m.minute ∧
    SecondNotation second m.second m.micro ∧
    s = year ++ '-' :: (month ++ '-' :: (day ++ 'T' :: (hour ++ ':' :: (minute ++ ':' :: second))))

/-! ## What is read is a notation -/

section Sound

variable {s rest : List Char} {n : Nat}

theorem exists_ofDigits? {ds : List Char} (hd : ∀ c ∈ ds, Numeral.isDecimal c = true) :
    ∃ n, Numeral.ofDigits? 10 ds = some n := by
  suffices ∀ start, ∃ n, Numeral.extend? 10 start ds = some n from this 0
  induction ds with
  | nil => exact fun start => ⟨start, rfl⟩
  | cons c ds ih =>
    intro start
    obtain ⟨d, hc⟩ := Option.isSome_iff_exists.1 (hd c (.head _))
    obtain ⟨n, hn⟩ := ih (fun e he => hd e (.tail _ he)) (start * 10 + d)
    exact ⟨n, by rw [Numeral.extend?, hc]; exact hn⟩

/-- The digits that are read as a numeral stand for its value. -/
theorem denotes_of_numeral {most : Nat} (hmost : 0 < most) (h : numeral most s = .ok (n, rest)) :
    ∃ ds, s = ds ++ rest ∧ Numeral.Denotes ds n ∧ ds.length ≤ most := by
  cases s with
  | nil => cases h
  | cons c s =>
    simp only [numeral] at h
    split at h
    case isFalse => cases h
    rename_i hc
    cases h
    obtain ⟨k, rfl⟩ : ∃ k, most = k + 1 := ⟨most - 1, by omega⟩
    have hdigits : ∀ d ∈ ((c :: s).take (k + 1)).takeWhile Numeral.isDecimal,
        Numeral.isDecimal d = true := fun d hd => (List.mem_takeWhile_imp hd)
    obtain ⟨n, hn⟩ := exists_ofDigits? hdigits
    refine ⟨((c :: s).take (k + 1)).takeWhile Numeral.isDecimal, ?_, ⟨?_, hdigits, ?_⟩, ?_⟩
    · exact (List.prefix_iff_eq_append.1
        ((List.takeWhile_prefix _).trans (List.take_prefix _ _))).symm
    · rw [List.take_succ_cons, List.takeWhile_cons_of_pos hc]
      exact List.cons_ne_nil _ _
    · rw [hn]
      rfl
    · exact (List.takeWhile_prefix _).length_le.trans (List.length_take_le _ _)

theorem skipBlank_eq (s : List Char) :
    ∃ blanks, s = blanks ++ Text.skipBlank s ∧ ∀ c ∈ blanks, Text.isBlank c = true :=
  ⟨s.takeWhile Text.isBlank, List.takeWhile_append_dropWhile.symm,
    fun _ => List.mem_takeWhile_imp⟩

/-- A reader that succeeds has succeeded at every step. -/
theorem of_bind_ok {α β : Type} {a : Except Fault α} {f : α → Except Fault β} {b : β}
    (h : a >>= f = .ok b) : ∃ v, a = .ok v ∧ f v = .ok b := by
  cases a with
  | error e => cases h
  | ok v => exact ⟨v, rfl, h⟩

theorem exists_of_field {low high : Nat} (h : field low high s = .ok (n, rest)) :
    ∃ t, s = t ++ rest ∧ FieldNotation t n := by
  obtain ⟨blanks, hs, hb⟩ := skipBlank_eq s
  obtain ⟨⟨n', rest'⟩, hn, h⟩ := of_bind_ok h
  simp only at h
  split at h <;> cases h
  obtain ⟨ds, hds, hd, hl⟩ := denotes_of_numeral (by omega) hn
  exact ⟨blanks ++ ds, by rw [List.append_assoc, ← hds, ← hs], .mk hb hd hl⟩

theorem le_of_field {low high : Nat} (h : field low high s = .ok (n, rest)) : n ≤ high := by
  obtain ⟨⟨n', rest'⟩, -, h⟩ := of_bind_ok h
  simp only at h
  split at h <;> cases h
  rename_i hn
  exact hn.2

/-- A second that is read with its fraction. -/
theorem secondNotation_of {second fraction : List Char} {k : Nat} (hle : n ≤ 60)
    (hn : FieldNotation second n) (hk : MicroNotation fraction k) :
    SecondNotation (second ++ fraction) (min n 59) ((if n = 60 then 1000000 else 0) + k) := by
  by_cases hleap : n = 60
  · subst hleap
    exact .leap hn hk
  · rw [if_neg hleap, Nat.zero_add, Nat.min_eq_left (by omega)]
    exact .plain hn hk

/-- The digits behind the sign of a year are a numeral of any length. -/
theorem denotes_of_signed {ds : List Char} (h : numeral ds.length ds = .ok (n, rest)) :
    ∃ es, ds = es ++ rest ∧ Numeral.Denotes es n := by
  have hpos : 0 < ds.length := by
    cases ds with
    | nil => cases h
    | cons c ds => exact Nat.succ_pos _
  obtain ⟨es, hes, hd, -⟩ := denotes_of_numeral hpos h
  exact ⟨es, hes, hd⟩

/-- A year that is read is made of the number behind its sign. -/
theorem exists_of_inRange {p : Except Fault (Nat × List Char)} (signed : Nat → Int) {year : Int}
    (h : (do
      let (n, rest) ← p
      let (year, rest) ← Except.ok (signed n, rest)
      if -2147483648 ≤ year ∧ year ≤ 2147483647 then .ok (year, rest)
      else .error .outOfRange) = .ok (year, rest)) : ∃ n, p = .ok (n, rest) ∧ year = signed n := by
  obtain ⟨⟨n, rest'⟩, hn, h⟩ := of_bind_ok h
  obtain ⟨_, hyear, h⟩ := of_bind_ok h
  cases hyear
  simp only at h
  split at h <;> cases h
  exact ⟨n, hn, rfl⟩

theorem exists_of_readYear {year : Int} (h : readYear s = .ok (year, rest)) :
    ∃ t, s = t ++ rest ∧ YearNotation t year := by
  obtain ⟨blanks, hs, hb⟩ := skipBlank_eq s
  rw [readYear] at h
  split at h
  case h_1 digits hsign =>
    obtain ⟨n, hn, rfl⟩ := exists_of_inRange (fun n => -(n : Int)) h
    obtain ⟨ds, rfl, hd⟩ := denotes_of_signed hn
    exact ⟨blanks ++ '-' :: ds, by rw [hs, hsign, List.append_assoc, List.cons_append],
      .minus hb hd⟩
  case h_2 digits hsign =>
    obtain ⟨n, hn, rfl⟩ := exists_of_inRange Nat.cast h
    obtain ⟨ds, rfl, hd⟩ := denotes_of_signed hn
    exact ⟨blanks ++ '+' :: ds, by rw [hs, hsign, List.append_assoc, List.cons_append], .plus hb hd⟩
  case h_3 =>
    obtain ⟨n, hn, rfl⟩ := exists_of_inRange Nat.cast h
    obtain ⟨ds, hds, hd, hl⟩ := denotes_of_numeral (by omega) hn
    exact ⟨blanks ++ ds, by rw [List.append_assoc, ← hds, ← hs], .plain hb hd hl⟩

theorem eq_of_literal {c : Char} (h : literal c s = .ok rest) : s = c :: rest := by
  cases s with
  | nil => cases h
  | cons d s =>
    simp only [literal] at h
    split at h <;> cases h
    rename_i hd
    rw [hd]

theorem isDecimal_of_extend? {ds : List Char} {start : Nat}
    (h : Numeral.extend? 10 start ds = some n) : ∀ c ∈ ds, Numeral.isDecimal c = true := by
  induction ds generalizing start with
  | nil => exact List.forall_mem_nil _
  | cons c ds ih =>
    obtain ⟨d, hc, h⟩ := Option.bind_eq_some_iff.1 h
    exact List.forall_mem_cons.2 ⟨by rw [Numeral.isDecimal, hc, Option.isSome_some], ih h⟩

/-- A digit takes one byte. -/
theorem bytes_of_isDecimal {ds : List Char} (hd : ∀ c ∈ ds, Numeral.isDecimal c = true) :
    Text.bytes ds = ds.length := by
  induction ds with
  | nil => rfl
  | cons c ds ih =>
    obtain ⟨hc, hds⟩ := List.forall_mem_cons.1 hd
    have hsize : c.utf8Size = 1 := by
      rw [Char.utf8Size_eq_one_iff]
      have hhigh := (Numeral.toNat_of_isDecimal hc).2
      exact UInt32.le_iff_toNat_le.2 (by simpa using Nat.le_trans hhigh (by decide))
    rw [Text.bytes, hsize, ih hds, List.length_cons, Nat.add_comm]

theorem exists_of_readMicro (h : readMicro s = .ok (n, [])) : MicroNotation s n := by
  unfold readMicro at h
  split at h
  case h_1 digits =>
    split at h
    case isTrue => cases h
    split at h
    case h_2 => cases h
    rename_i hbytes n' hn
    obtain ⟨rfl, hdrop⟩ := Prod.mk.inj (Except.ok.inj h)
    have htake : digits.take 6 = digits := List.take_of_length_le (List.drop_eq_nil_iff.1 hdrop)
    rw [htake] at hn
    have hdigits := isDecimal_of_extend? hn
    have hlength : digits.length = 6 := by
      have hle := List.drop_eq_nil_iff.1 hdrop
      have hbytes' := bytes_of_isDecimal hdigits
      omega
    refine .fraction ⟨?_, hdigits, hn⟩ hlength
    rintro rfl
    cases hlength
  case h_2 =>
    cases h
    exact .whole

/-- A moment has the fields from which it was made. -/
theorem eq_of_ofFields? {year : Int} {month day hour minute second micro : Nat} {m : Moment}
    (h : ofFields? year month day hour minute second micro = some m) :
    year = m.year ∧ month = m.month ∧ day = m.day ∧ hour = m.hour ∧ minute = m.minute ∧
      second = m.second ∧ micro = m.micro := by
  rw [ofFields?] at h
  split at h <;> cases h
  exact ⟨rfl, rfl, rfl, rfl, rfl, rfl, rfl⟩

/-- What is read is a notation of the moment. -/
theorem isNotation_of_read {m : Moment} (h : read s = .ok m) : IsNotation s m := by
  obtain ⟨⟨y, s₁⟩, hyear, h⟩ := of_bind_ok h
  obtain ⟨s₂, hmark₁, h⟩ := of_bind_ok h
  obtain ⟨⟨mo, s₃⟩, hmonth, h⟩ := of_bind_ok h
  obtain ⟨s₄, hmark₂, h⟩ := of_bind_ok h
  obtain ⟨⟨d, s₅⟩, hday, h⟩ := of_bind_ok h
  obtain ⟨s₆, hmark₃, h⟩ := of_bind_ok h
  obtain ⟨⟨ho, s₇⟩, hhour, h⟩ := of_bind_ok h
  obtain ⟨s₈, hmark₄, h⟩ := of_bind_ok h
  obtain ⟨⟨mi, s₉⟩, hminute, h⟩ := of_bind_ok h
  obtain ⟨s₁₀, hmark₅, h⟩ := of_bind_ok h
  obtain ⟨⟨se, s₁₁⟩, hsecond, h⟩ := of_bind_ok h
  obtain ⟨⟨us, s₁₂⟩, hmicro, h⟩ := of_bind_ok h
  simp only at h
  split at h
  case isFalse => cases h
  rename_i hend
  obtain rfl := List.isEmpty_iff.1 hend
  split at h
  case h_2 => cases h
  rename_i m' hfields
  cases h
  obtain ⟨year, rfl, hyear'⟩ := exists_of_readYear hyear
  obtain ⟨month, rfl, hmonth'⟩ := exists_of_field hmonth
  obtain ⟨day, rfl, hday'⟩ := exists_of_field hday
  obtain ⟨hour, rfl, hhour'⟩ := exists_of_field hhour
  obtain ⟨minute, rfl, hminute'⟩ := exists_of_field hminute
  obtain ⟨second, rfl, hsecond'⟩ := exists_of_field hsecond
  obtain ⟨rfl, rfl, rfl, rfl, rfl, hse, hus⟩ := eq_of_ofFields? hfields
  refine ⟨year, month, day, hour, minute, second ++ s₁₁, hyear', hmonth', hday', hhour', hminute',
    ?_, ?_⟩
  · rw [← hse, ← hus]
    exact secondNotation_of (le_of_field hsecond) hsecond' (exists_of_readMicro hmicro)
  · rw [eq_of_literal hmark₁, eq_of_literal hmark₂, eq_of_literal hmark₃, eq_of_literal hmark₄,
      eq_of_literal hmark₅]

end Sound

/-! ## A notation is read -/

section Complete

variable {t rest : List Char} {n : Nat}

theorem takeWhile_digits {ds : List Char} (hd : ∀ c ∈ ds, Numeral.isDecimal c = true)
    (hr : NoDigit rest) : (ds ++ rest).takeWhile Numeral.isDecimal = ds := by
  rw [List.takeWhile_append_of_pos hd]
  cases rest with
  | nil => simp
  | cons c rest => simp [hr c rfl]

/-- A numeral ends where its digits do. -/
theorem numeral_append (most : Nat) {ds : List Char} (hd : Numeral.Denotes ds n)
    (hl : ds.length ≤ most) (hr : NoDigit rest) : numeral most (ds ++ rest) = .ok (n, rest) := by
  have htake : ((ds ++ rest).take most).takeWhile Numeral.isDecimal = ds := by
    rw [List.take_append, List.take_of_length_le hl]
    refine takeWhile_digits hd.digits fun c hc => hr c ?_
    cases hrest : rest with
    | nil => simp [hrest] at hc
    | cons d rest' =>
      cases hm : most - ds.length with
      | zero => simp [hm] at hc
      | succ k => simpa [hm, hrest] using hc
  cases ds with
  | nil => exact absurd rfl hd.ne_nil
  | cons c ds =>
    have hc : Numeral.isDecimal c = true := hd.digits c (.head _)
    rw [List.cons_append] at htake ⊢
    simp only [numeral, hc, if_true, htake, hd.value]
    simp

theorem skipBlank_append {blanks : List Char} (hb : ∀ c ∈ blanks, Text.isBlank c = true) {c : Char}
    (hc : 33 ≤ c.toNat ∧ c.toNat ≤ 57) (s : List Char) :
    Text.skipBlank (blanks ++ c :: s) = c :: s := by
  have hc : Text.isBlank c = false := by
    simp only [Text.isBlank]
    simp
    omega
  rw [Text.skipBlank, List.dropWhile_append_of_pos hb, List.dropWhile_cons_of_neg (by simp [hc])]

theorem skipBlank_digits {blanks ds : List Char} (hb : ∀ c ∈ blanks, Text.isBlank c = true)
    (hd : Numeral.Denotes ds n) (s : List Char) :
    Text.skipBlank (blanks ++ (ds ++ s)) = ds ++ s := by
  cases ds with
  | nil => exact absurd rfl hd.ne_nil
  | cons c ds =>
    have hc := Numeral.toNat_of_isDecimal (hd.digits c (.head _))
    exact skipBlank_append hb (by omega) _

/-- A number within its bounds is read, up to a mark. -/
theorem field_append (low high : Nat) (ht : FieldNotation t n) (hn : low ≤ n ∧ n ≤ high)
    (hr : NoDigit rest) : field low high (t ++ rest) = .ok (n, rest) := by
  obtain ⟨hb, hd, hl⟩ := ht
  rw [field, List.append_assoc, skipBlank_digits hb hd, numeral_append 2 hd hl hr]
  exact if_pos hn

/-- A number does not start with a mark. -/
theorem append_ne_cons {ds : List Char} (hd : Numeral.Denotes ds n) {c : Char}
    (hc : Numeral.isDecimal c = false) (s : List Char) : ds ++ rest ≠ c :: s := by
  cases ds with
  | nil => exact absurd rfl hd.ne_nil
  | cons d ds =>
    rintro heq
    rw [← (List.cons.inj heq).1, hd.digits d (.head _)] at hc
    cases hc

/-- The year of a moment is read, up to a mark. -/
theorem readYear_append {year : Int} (ht : YearNotation t year)
    (hy : -262143 ≤ year ∧ year ≤ 262142) (hr : NoDigit rest) :
    readYear (t ++ rest) = .ok (year, rest) := by
  cases ht with
  | plain hb hd hl =>
    rw [List.append_assoc, readYear, skipBlank_digits hb hd]
    split
    case h_1 digits heq => exact absurd heq (append_ne_cons hd (by decide) digits)
    case h_2 digits heq => exact absurd heq (append_ne_cons hd (by decide) digits)
    case h_3 =>
      rw [numeral_append 4 hd hl hr]
      exact if_pos (by omega)
  | @plus blanks ds n hb hd =>
    have hn := numeral_append (ds ++ rest).length hd (by simp) hr
    rw [List.append_assoc, List.cons_append, readYear, skipBlank_append hb (by decide)]
    simp only [hn, bind, Except.bind]
    exact if_pos (by omega)
  | @minus blanks ds n hb hd =>
    have hn := numeral_append (ds ++ rest).length hd (by simp) hr
    rw [List.append_assoc, List.cons_append, readYear, skipBlank_append hb (by decide)]
    simp only [hn, bind, Except.bind]
    exact if_pos (by omega)

/-- A fraction is read to the end. -/
theorem readMicro_eq (ht : MicroNotation t n) : readMicro t = .ok (n, []) := by
  cases ht with
  | whole => rfl
  | @fraction ds n hd hl =>
    have hbytes : ¬ Text.bytes ds < 6 := by
      rw [bytes_of_isDecimal hd.digits]
      omega
    rw [readMicro, if_neg hbytes, List.take_of_length_le hl.le, hd.value,
      List.drop_of_length_le hl.le]

theorem noDigit_micro (ht : MicroNotation t n) : NoDigit t := by
  cases ht with
  | whole => exact fun c hc => nomatch hc
  | fraction => exact noDigit_cons (by decide)

/-- The number of a second and its fraction, as they are written. -/
theorem SecondNotation.parts {second micro : Nat} (h : SecondNotation t second micro)
    (hsecond : second < 60) : ∃ whole fraction n k, t = whole ++ fraction ∧
      FieldNotation whole n ∧ n ≤ 60 ∧ MicroNotation fraction k ∧ min n 59 = second ∧
      (if n = 60 then 1000000 else 0) + k = micro := by
  cases h with
  | plain hn hk =>
    refine ⟨_, _, second, micro, rfl, hn, by omega, hk, by omega, ?_⟩
    rw [if_neg (by omega), Nat.zero_add]
  | @leap _ _ k hn hk => exact ⟨_, _, 60, k, rfl, hn, le_rfl, hk, rfl, rfl⟩

theorem ofFields?_self (m : Moment) :
    ofFields? m.year m.month m.day m.hour m.minute m.second m.micro = some m :=
  dif_pos ⟨m.year_mem, m.month_mem, m.day_mem, m.hour_lt, m.minute_lt, m.second_lt, m.micro_lt⟩

theorem literal_self (c : Char) (rest : List Char) : literal c (c :: rest) = .ok rest := by
  simp [literal]

theorem day_lt (m : Moment) : m.day < 32 := by
  refine Nat.lt_succ_of_le (Nat.le_trans m.day_mem.2 ?_)
  unfold Calendar.monthLength
  split
  · split <;> omega
  all_goals omega

/-- A notation of a moment is read. -/
theorem read_of_isNotation {s : List Char} {m : Moment} (h : IsNotation s m) : read s = .ok m := by
  obtain ⟨year, month, day, hour, minute, second, hyear, hmonth, hday, hhour, hminute, hsecond,
    rfl⟩ := h
  have hmonths := m.month_mem
  have hdays := m.day_mem
  have hlast := m.day_lt
  have hhours := m.hour_lt
  have hminutes := m.minute_lt
  have hseconds := m.second_lt
  have hyphen (s : List Char) : NoDigit ('-' :: s) := noDigit_cons (by decide)
  have hcolon (s : List Char) : NoDigit (':' :: s) := noDigit_cons (by decide)
  have hletter (s : List Char) : NoDigit ('T' :: s) := noDigit_cons (by decide)
  obtain ⟨second, fraction, n, k, rfl, hn, hle, hk, hsecond, hmicro⟩ := hsecond.parts hseconds
  simp only [read, bind, Except.bind, literal_self, readYear_append hyear m.year_mem (hyphen _),
    field_append 1 12 hmonth (by omega) (hyphen _),
    field_append 1 31 hday (by omega) (hletter _),
    field_append 0 23 hhour (by omega) (hcolon _),
    field_append 0 59 hminute (by omega) (hcolon _),
    field_append 0 60 hn (by omega) (noDigit_micro hk),
    readMicro_eq hk, List.isEmpty_nil, if_true, hsecond, hmicro, ofFields?_self]

end Complete

/-- Reading a text gives the moment that it is a notation of, and fails if there is none. -/
theorem read_eq_ok_iff {s : List Char} {m : Moment} : read s = .ok m ↔ IsNotation s m :=
  ⟨isNotation_of_read, read_of_isNotation⟩

end Moment

end Propagation
