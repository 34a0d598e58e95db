import Propagation.Proofs.Chronology
import Propagation.Proofs.NormalForm

/-!
# The order of times as texts

Timestamps are compared as texts, and that is the order of time as long as all years have four
digits. Any year can be read, though, and other years are written with a sign. A plus comes before a
minus and both come before the digits, so that the years from 10000 on come first of all. Years with
the same sign compare digit by digit from the left, whatever place the digits have: the earlier of
two years before the year 0 mostly comes after the later one, and 100000 comes before 99999.

## Main definitions

* `Moment.yearFilled`: the digits of a year, filled up behind.
* `Moment.YearBefore`: the order of years as texts.
* `Moment.InStep`: years that are in the same order as texts and in time.

## Main statements

* `Moment.text_lt_text_iff`: the order of settled moments as texts.
* `Moment.length_text_eq_iff`: a moment takes 26 characters if its year has four digits, and else
  more.
* `Moment.compares_iff_inStep`: the moments whose texts are in the order of time.
* `Timestamp.text_order`: all of this for timestamps.
-/

namespace Propagation

/-! ## Numerals of different lengths -/

namespace Numeral

/-- A numeral consists of its `width` leading digits and of its `more` last ones. -/
theorem fixed_add (width more n : Nat) :
    fixed 10 (width + more) n = fixed 10 width (n / 10 ^ more) ++ fixed 10 more n := by
  induction more generalizing n with
  | zero => simp [fixed]
  | succ more ih =>
    rw [← Nat.add_assoc, fixed, ih, fixed, Nat.div_div_eq_div_mul, ← Nat.pow_succ',
      List.append_assoc]

/-- A character `c` that comes before the digits comes before every numeral. -/
theorem cons_lt_append {ds : List Char} {n : Nat} (hd : Denotes ds n) {c : Char}
    (hc : c.toNat < 48) (x y : List Char) : c :: x < ds ++ y := by
  cases ds with
  | nil => exact absurd rfl hd.ne_nil
  | cons d ds =>
    have hdigit := (toNat_of_isDecimal (hd.digits d (.head _))).1
    exact List.cons_lt_cons_iff.2 (.inl (Nat.lt_of_lt_of_le hc hdigit))

section Lengths

variable {width more m n : Nat}

/-- A numeral of `width` digits comes before a longer one if it is not greater than the leading
digits of it. -/
theorem fixed_lt_longer_iff (hm : m < 10 ^ width) (hn : n < 10 ^ (width + more)) (hmore : more ≠ 0)
    (x y : List Char) :
    fixed 10 width m ++ '-' :: x < fixed 10 (width + more) n ++ '-' :: y ↔ m * 10 ^ more ≤ n := by
  have hlead : n / 10 ^ more < 10 ^ width :=
    Nat.div_lt_of_lt_mul (by rwa [Nat.mul_comm, ← Nat.pow_add])
  have hmark : '-' :: x < fixed 10 more n ++ '-' :: y :=
    cons_lt_append (denotes_fixed hmore n) (by decide) _ _
  rw [fixed_add, List.append_assoc, append_lt_append_iff (by simp), fixed_lt_fixed_iff hm hlead,
    fixed_inj hm hlead, ← Nat.le_div_iff_mul_le (by positivity), Nat.le_iff_lt_or_eq]
  exact or_congr_right (and_iff_left hmark)

/-- A numeral comes before a shorter one of `width` digits if its leading digits make a smaller
number. -/
theorem fixed_longer_lt_iff (hm : m < 10 ^ (width + more)) (hn : n < 10 ^ width) (hmore : more ≠ 0)
    (x y : List Char) :
    fixed 10 (width + more) m ++ '-' :: x < fixed 10 width n ++ '-' :: y ↔ m < n * 10 ^ more := by
  have hlead : m / 10 ^ more < 10 ^ width :=
    Nat.div_lt_of_lt_mul (by rwa [Nat.mul_comm, ← Nat.pow_add])
  have hmark : '-' :: y < fixed 10 more m ++ '-' :: x :=
    cons_lt_append (denotes_fixed hmore m) (by decide) _ _
  rw [fixed_add, List.append_assoc, append_lt_append_iff (by simp), fixed_lt_fixed_iff hlead hn,
    ← Nat.div_lt_iff_lt_mul (by positivity)]
  exact or_iff_left fun h => lt_asymm hmark h.2

/-- The numeral `digits 10 n` has as many digits as `n` needs. -/
theorem digits_eq_fixed (hlow : 10 ^ width ≤ n) (hhigh : n < 10 ^ (width + 1)) :
    digits 10 n = fixed 10 (width + 1) n := by
  induction width generalizing n with
  | zero =>
    rw [Nat.zero_add, Nat.pow_one] at hhigh
    rw [digits, if_neg (by omega), fixed, fixed, Nat.mod_eq_of_lt hhigh]
    rfl
  | succ width ih =>
    have hten : 10 ≤ n := by
      have := Nat.one_le_pow width 10 (by omega)
      rw [Nat.pow_succ'] at hlow
      omega
    rw [digits, if_pos ⟨by omega, hten⟩, fixed, ih]
    · rwa [Nat.le_div_iff_mul_le (by omega), ← Nat.pow_succ]
    · exact Nat.div_lt_of_lt_mul (by rwa [← Nat.pow_succ'])

end Lengths

end Numeral

/-! ## Years -/

namespace Moment

/-- The number of digits of a year: at least four, and in the calendar at most six. -/
def yearWidth (n : Nat) : Nat := if n < 10000 then 4 else if n < 100000 then 5 else 6

/-- The digits of a year, filled up behind to six. -/
def yearFilled (n : Nat) : Nat := n * 10 ^ (6 - yearWidth n)

/-- A sign that is written: what comes first as a text is the least. -/
def signRank (year : Int) : Nat := if 9999 < year then 0 else if year < 0 then 1 else 2

/-- The digits of the year `m` come before those of the year `n`, compared from the left. -/
def DigitsBefore (m n : Nat) : Prop :=
  yearFilled m < yearFilled n ∨ yearFilled m = yearFilled n ∧ yearWidth m < yearWidth n

/-- The text of the year `x` comes before that of the year `y`. -/
def YearBefore (x y : Int) : Prop :=
  signRank x < signRank y ∨ signRank x = signRank y ∧ DigitsBefore x.natAbs y.natAbs

/-- The number `n` is greater than `m`, and its digits come first, as those of 100000 come before
those of 99999. -/
def Overtakes (n m : Nat) : Prop := m < n ∧ DigitsBefore n m

/-- The years `x` and `y` come in the same order as texts and in time: equal ones; two of which none
is beyond 9999, and not both are before the year 0; two beyond 9999, unless one overtakes the other;
and two before the year 0 only if one does. -/
def InStep (x y : Int) : Prop :=
  x = y ∨ (x ≤ 9999 ∧ y ≤ 9999 ∧ (0 ≤ x ∨ 0 ≤ y)) ∨
  (9999 < x ∧ 9999 < y ∧ ¬ Overtakes x.natAbs y.natAbs ∧ ¬ Overtakes y.natAbs x.natAbs) ∨
  (x < 0 ∧ y < 0 ∧ (Overtakes x.natAbs y.natAbs ∨ Overtakes y.natAbs x.natAbs))

instance (m n : Nat) : Decidable (DigitsBefore m n) := inferInstanceAs (Decidable (_ ∨ _))

instance (n m : Nat) : Decidable (Overtakes n m) := inferInstanceAs (Decidable (_ ∧ _))

instance (x y : Int) : Decidable (InStep x y) := inferInstanceAs (Decidable (_ ∨ _ ∨ _ ∨ _))

section Years

variable {m n : Nat}

theorem lt_yearWidth (hn : n < 1000000) : n < 10 ^ yearWidth n := by
  unfold yearWidth
  split_ifs <;> omega

theorem padded_eq_fixed_yearWidth (hn : n < 1000000) :
    Numeral.padded 4 n = Numeral.fixed 10 (yearWidth n) n := by
  have hlong (width : Nat) (hlow : 10 ^ (width + 3) ≤ n) (hhigh : n < 10 ^ (width + 3 + 1)) :
      Numeral.padded 4 n = Numeral.fixed 10 (width + 3 + 1) n := by
    rw [Numeral.padded, Numeral.digits_eq_fixed hlow hhigh, Numeral.length_fixed,
      Nat.sub_eq_zero_of_le (by omega), List.replicate_zero, List.nil_append]
  unfold yearWidth
  split_ifs with hfour hfive
  · exact Numeral.padded_eq_fixed hfour
  · exact hlong 1 (by omega) (by omega)
  · exact hlong 2 (by omega) (by omega)

theorem yearWidth_le (n : Nat) : yearWidth n ≤ 6 := by
  unfold yearWidth
  split_ifs <;> omega

/-- Filled up by `yearFilled`, years compare as their digits do from the left. -/
theorem yearFilled_le_iff (more : Nat) (h : yearWidth m + more = yearWidth n) :
    yearFilled m ≤ yearFilled n ↔ m * 10 ^ more ≤ n := by
  have hle := yearWidth_le n
  have hm : 6 - yearWidth m = more + (6 - yearWidth n) := by omega
  rw [yearFilled, yearFilled, hm, Nat.pow_add, ← Nat.mul_assoc]
  exact Nat.mul_le_mul_right_iff (by positivity)

/-- Years with the same sign. -/
theorem padded_lt_padded_iff (hm : m < 1000000) (hn : n < 1000000) (x y : List Char) :
    Numeral.padded 4 m ++ '-' :: x < Numeral.padded 4 n ++ '-' :: y ↔
      DigitsBefore m n ∨ m = n ∧ x < y := by
  have hm' := lt_yearWidth hm
  have hn' := lt_yearWidth hn
  rw [padded_eq_fixed_yearWidth hm, padded_eq_fixed_yearWidth hn, DigitsBefore]
  rcases Nat.lt_trichotomy (yearWidth m) (yearWidth n) with hlt | heq | hgt
  · obtain ⟨more, hmore⟩ := Nat.exists_eq_add_of_lt hlt
    rw [Nat.add_assoc] at hmore
    rw [hmore] at hn' ⊢
    rw [Numeral.fixed_lt_longer_iff hm' hn' (by omega), ← yearFilled_le_iff _ hmore.symm]
    have hne : m ≠ n := by rintro rfl; omega
    omega
  · have hle : yearFilled m ≤ yearFilled n ↔ m ≤ n := by simpa using yearFilled_le_iff 0 heq
    have hge : yearFilled n ≤ yearFilled m ↔ n ≤ m := by simpa using yearFilled_le_iff 0 heq.symm
    have hlt : yearFilled m < yearFilled n ↔ m < n := by omega
    rw [← heq] at hn' ⊢
    rw [Numeral.fixed_append_lt_iff hm' hn', hlt]
    simp
  · obtain ⟨more, hmore⟩ := Nat.exists_eq_add_of_lt hgt
    rw [Nat.add_assoc] at hmore
    have hfilled := yearFilled_le_iff _ hmore.symm
    rw [hmore] at hm' ⊢
    rw [Numeral.fixed_longer_lt_iff hm' hn' (by omega)]
    have hne : m ≠ n := by rintro rfl; omega
    omega

/-- How `yearText` begins. -/
theorem yearText_cases (year : Int) :
    (signRank year = 0 ∧ 9999 < year ∧ yearText year = '+' :: Numeral.padded 4 year.natAbs) ∨
    (signRank year = 1 ∧ year < 0 ∧ yearText year = '-' :: Numeral.padded 4 year.natAbs) ∨
    (signRank year = 2 ∧ 0 ≤ year ∧ yearText year = Numeral.padded 4 year.natAbs) := by
  unfold signRank yearText
  split_ifs <;> simp <;> omega

/-- A plus comes before a minus, and both before the digits. -/
theorem yearText_lt_of_signRank_lt {x y : Int} (h : signRank x < signRank y) (s t : List Char) :
    yearText x ++ s < yearText y ++ t := by
  have hdigits {c : Char} (hc : c.toNat < 48) : c :: (Numeral.padded 4 x.natAbs ++ s) <
      Numeral.padded 4 y.natAbs ++ t :=
    Numeral.cons_lt_append (Numeral.denotes_padded 4 y.natAbs) hc _ _
  rcases yearText_cases x with ⟨hx, -, htext⟩ | ⟨hx, -, htext⟩ | ⟨hx, -, htext⟩ <;>
    rcases yearText_cases y with ⟨hy, -, htext'⟩ | ⟨hy, -, htext'⟩ | ⟨hy, -, htext'⟩ <;>
    rw [hx, hy] at h <;> rw [htext, htext'] <;> try omega
  case inl.inr.inl => exact List.cons_lt_cons_iff.2 (.inl (by decide))
  case inl.inr.inr => exact hdigits (by decide)
  case inr.inl.inr.inr => exact hdigits (by decide)

/-- Years of one `signRank` are written with the same sign, or both without. -/
theorem exists_sign {x y : Int} (h : signRank x = signRank y) :
    ∃ sign, yearText x = sign ++ Numeral.padded 4 x.natAbs ∧
      yearText y = sign ++ Numeral.padded 4 y.natAbs := by
  rcases yearText_cases x with ⟨hx, -, htext⟩ | ⟨hx, -, htext⟩ | ⟨hx, -, htext⟩ <;>
    rcases yearText_cases y with ⟨hy, -, htext'⟩ | ⟨hy, -, htext'⟩ | ⟨hy, -, htext'⟩ <;>
    rw [hx, hy] at h <;> try omega
  case inl.inl => exact ⟨['+'], htext, htext'⟩
  case inr.inl.inr.inl => exact ⟨['-'], htext, htext'⟩
  case inr.inr.inr.inr => exact ⟨[], htext, htext'⟩

/-- The order of years as texts, in front of anything else. -/
theorem yearText_lt_yearText_iff {x y : Int} (hx : -262143 ≤ x ∧ x ≤ 262142)
    (hy : -262143 ≤ y ∧ y ≤ 262142) (s t : List Char) :
    yearText x ++ '-' :: s < yearText y ++ '-' :: t ↔ YearBefore x y ∨ x = y ∧ s < t := by
  unfold YearBefore
  rcases Nat.lt_trichotomy (signRank x) (signRank y) with hlt | heq | hgt
  · exact iff_of_true (yearText_lt_of_signRank_lt hlt _ _) (.inl (.inl hlt))
  · obtain ⟨sign, htext, htext'⟩ := exists_sign heq
    have habs : x.natAbs = y.natAbs ↔ x = y := by
      unfold signRank at heq
      split_ifs at heq <;> omega
    rw [htext, htext', List.append_assoc, List.append_assoc, append_lt_append_iff rfl,
      padded_lt_padded_iff (by omega) (by omega), habs]
    simp only [heq, lt_irrefl, true_and, false_or]
  · have hasymm := lt_asymm (yearText_lt_of_signRank_lt hgt ('-' :: t) ('-' :: s))
    have hne : x ≠ y := by rintro rfl; omega
    refine iff_of_false hasymm ?_
    omega

/-! ## In the order of time -/

/-- Of two years that differ, the digits of one come first. -/
theorem digitsBefore_comm (hne : m ≠ n) : DigitsBefore m n ↔ ¬ DigitsBefore n m := by
  have hinj : yearFilled m = yearFilled n → yearWidth m ≠ yearWidth n := by
    intro hfilled hwidth
    have hle := yearFilled_le_iff 0 hwidth
    have hge := yearFilled_le_iff 0 hwidth.symm
    omega
  unfold DigitsBefore
  omega

theorem digitsBefore_iff_lt (hm : m ≤ 9999) (hn : n ≤ 9999) : DigitsBefore m n ↔ m < n := by
  have hwidth {k : Nat} (hk : k ≤ 9999) : yearWidth k = 4 := if_pos (by omega)
  rw [DigitsBefore, yearFilled, yearFilled, hwidth hm, hwidth hn]
  omega

/-- Two different years are in the same order as texts and in time just if they are `InStep`. -/
theorem yearBefore_iff_lt_iff {x y : Int} (hne : x ≠ y) :
    (YearBefore x y ↔ x < y) ↔ InStep x y := by
  have hcomm (h : x.natAbs ≠ y.natAbs) := digitsBefore_comm h
  have hplain (hx : x.natAbs ≤ 9999) (hy : y.natAbs ≤ 9999) := digitsBefore_iff_lt hx hy
  unfold InStep YearBefore signRank Overtakes
  grind

end Years

/-! ## Moments -/

/-- The order of settled moments as texts: by the year, as texts, and within a year by time. -/
theorem text_lt_text_iff {a b : Moment} (ha : a.Settled) (hb : b.Settled) : a.text < b.text ↔
    YearBefore a.year b.year ∨ a.year = b.year ∧ compare a b = .lt := by
  rw [String.lt_iff_toList_lt, toList_text, toList_text, chars_eq, chars_eq,
    yearText_lt_yearText_iff a.year_mem b.year_mem, yearless_lt_yearless_iff ha hb,
    compare_eq_lt_iff]
  refine or_congr_right (and_congr_right fun heq => ?_)
  simp only [heq, lt_irrefl, true_and, false_or]

/-- How long the text of a moment is. -/
theorem length_text (m : Moment) : m.text.length = (yearText m.year).length + 22 := by
  rw [text, String.length_ofList, chars_eq, yearless]
  simp only [List.length_append, List.length_cons, Numeral.length_fixed]

/-- A moment takes 26 characters just if it is `Plain`. -/
theorem length_text_eq_iff (m : Moment) : m.text.length = 26 ↔ m.Plain := by
  have hyear := m.year_mem
  rw [length_text, yearText, padded_eq_fixed_yearWidth (by omega), Plain]
  have hwidth : 4 ≤ yearWidth m.year.natAbs := by
    unfold yearWidth
    split_ifs <;> omega
  split_ifs with hplain
  · have hfour : yearWidth m.year.natAbs = 4 := if_pos (by omega)
    simpa [hfour] using hplain
  all_goals
    simp only [List.length_cons, Numeral.length_fixed]
    omega

/-- The texts of two settled moments are in the order of time just if their years are `InStep`. -/
theorem compares_iff_inStep {a b : Moment} (ha : a.Settled) (hb : b.Settled) :
    (a.text < b.text ↔ compare a b = .lt) ↔ InStep a.year b.year := by
  by_cases heq : a.year = b.year
  · have hirrefl : ¬ YearBefore b.year b.year := by
      unfold YearBefore DigitsBefore
      omega
    rw [text_lt_text_iff ha hb, heq]
    simp only [hirrefl, true_and, false_or, InStep, true_or]
  · rw [← yearBefore_iff_lt_iff heq, text_lt_text_iff ha hb, compare_eq_lt_iff]
    simp only [heq, false_and, or_false]

end Moment

/-! ## Timestamps -/

namespace Timestamp

/-- Of two timestamps, the text of one comes first by the year, as texts compare, and within a year
by time. This is the order of time just if the years are in step: if one is beyond 9999 and the
other is not, it never is. A timestamp has 26 characters if its year has four digits and no sign,
and among these timestamps the order is always that of time. -/
theorem text_order (t t' : Timestamp) :
    (t.text < t'.text ↔ Moment.YearBefore t.moment.year t'.moment.year ∨
      t.moment.year = t'.moment.year ∧ compare t.moment t'.moment = .lt) ∧
    ((t.text < t'.text ↔ compare t.moment t'.moment = .lt) ↔
      Moment.InStep t.moment.year t'.moment.year) ∧
    (t.text.length = 26 ↔ 0 ≤ t.moment.year ∧ t.moment.year ≤ 9999) ∧
    (t.text.length = 26 → t'.text.length = 26 →
      (t.text < t'.text ↔ compare t.moment t'.moment = .lt)) := by
  have hlength (t : Timestamp) : t.text.length = 26 ↔ t.moment.Plain := by
    rw [← Moment.length_text_eq_iff, text_eq]
  have hinStep : (t.text < t'.text ↔ compare t.moment t'.moment = .lt) ↔
      Moment.InStep t.moment.year t'.moment.year := by
    rw [← Moment.compares_iff_inStep t.settled_moment t'.settled_moment, text_eq, text_eq]
  refine ⟨?_, hinStep, hlength t, fun ht ht' => hinStep.2 ?_⟩
  · rw [← Moment.text_lt_text_iff t.settled_moment t'.settled_moment, text_eq, text_eq]
  · have hplain := (hlength t).1 ht
    have hplain' := (hlength t').1 ht'
    unfold Moment.Plain at hplain hplain'
    exact .inr (.inl ⟨hplain.2, hplain'.2, .inl hplain.1⟩)

/-- The year 10000 comes before the last microsecond of the year 9999. -/
theorem text_order_beyond : ∃ t t' : Timestamp, read "+10000-01-01T00:00:00" = .ok t ∧
    read "9999-12-31T23:59:59.999999" = .ok t' ∧ t.text < t'.text ∧
    compare t'.moment t.moment = .lt ∧ t.text.length = 28 := by
  let turn : Moment := ⟨10000, 1, 1, 0, 0, 0, 0, by decide, by decide, by decide, by decide,
    by decide, by decide, by decide⟩
  let last : Moment := ⟨9999, 12, 31, 23, 59, 59, 999999, by decide, by decide, by decide,
    by decide, by decide, by decide, by decide⟩
  exact ⟨ofMoment turn, ofMoment last, by decide +kernel⟩

end Timestamp

end Propagation
