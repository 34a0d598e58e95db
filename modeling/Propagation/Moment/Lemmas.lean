import Propagation.Moment.Notation

/-!
# Reading what was written

A moment is settled if it lies in no leap second, or in one that follows the second 59. The written
form of a settled moment is one of its notations, and so it reads back as the same moment. A leap
second after another second is written just like the second that comes next, and reads back as that.

## Main definitions

* `Moment.Settled`: a moment that lies in no leap second but one after the second 59.
* `Moment.settle`: the settled moment that is written like another one.

## Main statements

* `Moment.isNotation_chars`: the written form of a settled moment is a notation of it.
* `Moment.settled_of_isNotation`: only settled moments have notations.
* `Moment.read_chars`: the written form of a moment is read as the moment that it settles to.
* `Moment.text_eq_text_iff`: moments are written alike if they settle to the same moment.
-/

namespace Propagation

namespace Numeral

theorem denotes_fixed {width : Nat} (hwidth : width ≠ 0) (n : Nat) :
    Denotes (fixed 10 width n) (n % 10 ^ width) where
  ne_nil h := hwidth (by rw [← length_fixed 10 width n, h, List.length_nil])
  digits _ := isDecimal_of_mem_fixed
  value := ofDigits?_fixed (by omega) (by omega) width n

theorem denotes_padded (width n : Nat) : Denotes (padded width n) n where
  ne_nil h := digits_ne_nil 10 n (List.append_eq_nil_iff.1 h).2
  digits _ := isDecimal_of_mem_padded
  value := ofDigits?_padded width n

theorem lt_of_extend? {ds : List Char} {start n : Nat} (h : extend? 10 start ds = some n) :
    n < (start + 1) * 10 ^ ds.length := by
  induction ds generalizing start with
  | nil =>
    cases h
    simp
  | cons c ds ih =>
    obtain ⟨d, hc, h⟩ := Option.bind_eq_some_iff.1 h
    have hd := digitValue?_lt hc
    calc n < (start * 10 + d + 1) * 10 ^ ds.length := ih h
      _ ≤ ((start + 1) * 10) * 10 ^ ds.length := Nat.mul_le_mul_right _ (by omega)
      _ = (start + 1) * 10 ^ (c :: ds).length := by
        rw [List.length_cons, Nat.pow_succ', Nat.mul_assoc]

theorem Denotes.lt {ds : List Char} {n : Nat} (h : Denotes ds n) : n < 10 ^ ds.length := by
  have hlt := lt_of_extend? h.value
  rwa [Nat.zero_add, Nat.one_mul] at hlt

end Numeral

namespace Moment

/-! ## Leap seconds -/

/-- The moment `m` lies in no leap second, or in one that follows the last second of a minute. -/
def Settled (m : Moment) : Prop := m.micro < 1000000 ∨ m.second = 59

instance (m : Moment) : Decidable m.Settled := inferInstanceAs (Decidable (_ ∨ _))

theorem bounds_of_not_settled {m : Moment} (h : ¬ m.Settled) :
    m.second < 59 ∧ 1000000 ≤ m.micro := by
  have hsecond := m.second_lt
  unfold Settled at h
  omega

/-- The settled moment that is written like `m`: a leap second that does not follow the last second
of a minute is taken for the next second of the minute. -/
def settle (m : Moment) : Moment :=
  if h : m.Settled then m
  else { m with
    second := m.second + 1
    micro := m.micro - 1000000
    second_lt := by have := bounds_of_not_settled h; omega
    micro_lt := by have := m.micro_lt; omega }

theorem settle_of_settled {m : Moment} (h : m.Settled) : m.settle = m := dif_pos h

theorem settled_settle (m : Moment) : m.settle.Settled := by
  by_cases h : m.Settled
  · rwa [settle_of_settled h]
  · have hmicro := m.micro_lt
    rw [settle, dif_neg h]
    exact .inl (by simp only; omega)

theorem settle_eq_self_iff {m : Moment} : m.settle = m ↔ m.Settled :=
  ⟨fun h => h ▸ m.settled_settle, settle_of_settled⟩

/-- To `settle` a moment does not change how it is written. -/
theorem chars_settle (m : Moment) : m.settle.chars = m.chars := by
  by_cases h : m.Settled
  · rw [settle_of_settled h]
  · obtain ⟨-, hmicro⟩ := bounds_of_not_settled h
    have hsecond : m.second + 1 + (m.micro - 1000000) / 1000000 = m.second + m.micro / 1000000 := by
      omega
    have hfraction : (m.micro - 1000000) % 1000000 = m.micro % 1000000 := by omega
    rw [settle, dif_neg h]
    simp only [chars, writtenSecond, writtenMicro, hsecond, hfraction]

/-! ## The written form as a notation -/

theorem fieldNotation_fixed {n : Nat} (hn : n < 10 ^ 2) :
    FieldNotation (Numeral.fixed 10 2 n) n := by
  have hd := Numeral.denotes_fixed (by omega : 2 ≠ 0) n
  rw [Nat.mod_eq_of_lt hn] at hd
  rw [← List.nil_append (Numeral.fixed 10 2 n)]
  exact .mk (List.forall_mem_nil _) hd (Numeral.length_fixed 10 2 n).le

theorem microNotation_fixed {n : Nat} (hn : n < 10 ^ 6) :
    MicroNotation ('.' :: Numeral.fixed 10 6 n) n := by
  have hd := Numeral.denotes_fixed (by omega : 6 ≠ 0) n
  rw [Nat.mod_eq_of_lt hn] at hd
  exact .fraction hd (Numeral.length_fixed 10 6 n)

theorem yearNotation_yearText (year : Int) : YearNotation (yearText year) year := by
  have hd := Numeral.denotes_padded 4 year.natAbs
  have hb := List.forall_mem_nil fun c => Text.isBlank c = true
  unfold yearText
  split
  case isTrue h =>
    have hlength : (Numeral.padded 4 year.natAbs).length = 4 := by
      rw [Numeral.padded_eq_fixed (by omega), Numeral.length_fixed]
    have hplain := YearNotation.plain hb hd hlength.le
    rwa [Int.natAbs_of_nonneg h.1] at hplain
  case isFalse h =>
    split
    case isTrue hneg =>
      have hminus := YearNotation.minus hb hd
      rwa [Int.ofNat_natAbs_of_nonpos hneg.le, Int.neg_neg] at hminus
    case isFalse hneg =>
      have hplus := YearNotation.plus hb hd
      rwa [Int.natAbs_of_nonneg (Int.not_lt.1 hneg)] at hplus

theorem secondNotation_written {m : Moment} (h : m.Settled) :
    SecondNotation (Numeral.fixed 10 2 m.writtenSecond ++ '.' :: Numeral.fixed 10 6 m.writtenMicro)
      m.second m.micro := by
  have hsecond := m.second_lt
  have hmicro := m.micro_lt
  unfold writtenSecond writtenMicro
  by_cases hleap : m.micro < 1000000
  · rw [Nat.div_eq_of_lt hleap, Nat.mod_eq_of_lt hleap]
    exact .plain (fieldNotation_fixed (by omega)) (microNotation_fixed (by omega))
  · have hlast : m.second = 59 := h.resolve_left hleap
    have hdiv : m.micro / 1000000 = 1 := by omega
    have hnotation : SecondNotation (Numeral.fixed 10 2 60 ++
        '.' :: Numeral.fixed 10 6 (m.micro % 1000000)) 59 (1000000 + m.micro % 1000000) :=
      .leap (fieldNotation_fixed (by omega)) (microNotation_fixed (by omega))
    rwa [hlast, hdiv, show m.micro = 1000000 + m.micro % 1000000 by omega, Nat.add_mod_left,
      Nat.mod_mod]

/-- The written form of a settled moment is a notation of it. -/
theorem isNotation_chars {m : Moment} (h : m.Settled) : IsNotation m.chars m := by
  have hmonth := m.month_mem
  have hday := m.day_lt
  have hhour := m.hour_lt
  have hminute := m.minute_lt
  refine ⟨yearText m.year, _, _, _, _, _, yearNotation_yearText m.year,
    fieldNotation_fixed (n := m.month) (by omega), fieldNotation_fixed (n := m.day) (by omega),
    fieldNotation_fixed (n := m.hour) (by omega), fieldNotation_fixed (n := m.minute) (by omega),
    secondNotation_written h, ?_⟩
  simp only [chars, List.append_assoc, List.cons_append]

/-- Only settled moments have notations. -/
theorem settled_of_isNotation {s : List Char} {m : Moment} (h : IsNotation s m) : m.Settled := by
  obtain ⟨-, -, -, -, -, second, -, -, -, -, -, hsecond, -⟩ := h
  unfold Settled
  generalize m.second = n at hsecond ⊢
  generalize m.micro = k at hsecond ⊢
  cases hsecond with
  | leap => exact .inr rfl
  | plain _ hk =>
    cases hk with
    | whole => exact .inl (by omega)
    | fraction hd hl =>
      have hlt := hd.lt
      rw [hl] at hlt
      exact .inl hlt

/-! ## Reading the written form -/

theorem settled_of_read {s : List Char} {m : Moment} (h : read s = .ok m) : m.Settled :=
  settled_of_isNotation (isNotation_of_read h)

/-- To `read` the written form of a moment gives the moment that it settles to. -/
theorem read_chars (m : Moment) : read m.chars = .ok m.settle := by
  rw [← chars_settle]
  exact read_of_isNotation (isNotation_chars m.settled_settle)

@[simp] theorem toList_text (m : Moment) : m.text.toList = m.chars := String.toList_ofList

theorem text_settle (m : Moment) : m.settle.text = m.text := by
  rw [text, chars_settle, text]

/-- Moments are written alike just if `settle` makes the same moment of them. -/
theorem text_eq_text_iff {a b : Moment} : a.text = b.text ↔ a.settle = b.settle := by
  constructor
  · intro h
    have hchars : a.chars = b.chars := by rw [← toList_text, h, toList_text]
    have hread := (read_chars a).symm.trans (hchars ▸ read_chars b)
    exact Except.ok.inj hread
  · intro h
    rw [← text_settle a, h, text_settle]

/-- Different `Settled` moments have different written forms. -/
theorem text_injOn : Set.InjOn text {m | m.Settled} := by
  intro a ha b hb h
  rw [← settle_of_settled ha, text_eq_text_iff.1 h, settle_of_settled hb]

end Moment

end Propagation
