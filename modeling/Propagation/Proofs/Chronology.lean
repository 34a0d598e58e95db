import Propagation.Clock
import Propagation.Moment.Lemmas

/-!
# Times in their order

As long as years have four digits, the written forms of moments are equally long, and come one after
the other as the moments do: field by field from the year down, and each field digit by digit. And
instants that come one after the other are moments that do so, since a later day has a later year,
or a later month in the same year, or a later day in the same month. A clock therefore issues
timestamps that increase as texts.

## Main definitions

* `Timestamp.ofMicros`: the timestamp of an instant.
* `Clock.Reached`, `Clock.Plain`: how far a clock has got, and one that has not got beyond the year
  9999.
* `Clock.Dealt`: timestamps that a clock has issued one after the other.

## Main statements

* `Calendar.yearOf_lt_yearOf`, `Calendar.monthOf_lt_monthOf`: later days have later dates.
* `Moment.chars_lt_chars`: the order of settled moments is that of their written forms.
* `Moment.ofMicros_lt_ofMicros`: later instants are later moments.
* `Timestamp.ofMicros_lt_ofMicros`: the timestamps of later instants are later as texts.
* `Clock.pairwise_issue`: so are the timestamps that a clock issues.
-/

namespace Propagation

/-! ## Dates -/

namespace Calendar

theorem le_yearOf (year : Int) (days : Nat) : year ≤ (yearOf year days).1 := by
  fun_induction yearOf year days with
  | case1 year days h => exact Int.le_refl year
  | case2 year days h ih => omega

/-- A later day is by `yearOf` in a later year, or later in the same year. -/
theorem yearOf_lt_yearOf (year : Int) {days days' : Nat} (h : days < days') :
    (yearOf year days).1 < (yearOf year days').1 ∨
      (yearOf year days).1 = (yearOf year days').1 ∧
        (yearOf year days).2 < (yearOf year days').2 := by
  fun_induction yearOf year days generalizing days' with
  | case1 year days hd =>
    rw [yearOf]
    split
    · exact .inr ⟨rfl, h⟩
    · have := le_yearOf (year + 1) (days' - yearLength year)
      exact .inl (by omega)
  | case2 year days hd ih =>
    rw [yearOf.eq_def year days', if_neg (by omega)]
    exact ih (by omega)

/-- A later day of a year is by `monthOf` in a later month, or later in the same month. -/
theorem monthOf_lt_monthOf (year : Int) (rest month : Nat) {days days' : Nat} (h : days < days') :
    (monthOf year rest month days).1 < (monthOf year rest month days').1 ∨
      (monthOf year rest month days).1 = (monthOf year rest month days').1 ∧
        (monthOf year rest month days).2 < (monthOf year rest month days').2 := by
  induction rest generalizing month days days' with
  | zero => exact .inr ⟨rfl, h⟩
  | succ rest ih =>
    rw [monthOf, monthOf]
    by_cases hd : days < monthLength year month
    · rw [if_pos hd]
      split
      · exact .inr ⟨rfl, h⟩
      · have := (monthOf_mem year rest (month + 1) (days' - monthLength year month)).1
        exact .inl (by omega)
    · rw [if_neg hd, if_neg (by omega)]
      exact ih (month + 1) (by omega)

end Calendar

/-! ## Texts -/

/-- Texts that begin with equally many characters, `a` and `b`, compare by these, and then by the
rest. -/
theorem append_lt_append_iff {a b x y : List Char} (h : a.length = b.length) :
    a ++ x < b ++ y ↔ a < b ∨ a = b ∧ x < y := by
  induction a generalizing b with
  | nil =>
    obtain rfl : b = [] := List.length_eq_zero_iff.1 h.symm
    simp
  | cons c a ih =>
    cases b with
    | nil => cases h
    | cons d b =>
      rw [List.cons_append, List.cons_append, List.cons_lt_cons_iff, List.cons_lt_cons_iff,
        ih (Nat.succ.inj h), List.cons.injEq]
      tauto

namespace Numeral

theorem digit_lt_digit_iff {m n : Nat} (hm : m < 10) (hn : n < 10) :
    digit m < digit n ↔ m < n := by
  have table : ∀ m < 10, ∀ n < 10, digit m < digit n ↔ m < n := by decide
  exact table m hm n hn

theorem fixed_inj {width m n : Nat} (hm : m < 10 ^ width) (hn : n < 10 ^ width) :
    fixed 10 width m = fixed 10 width n ↔ m = n := by
  refine ⟨fun h => ?_, congrArg _⟩
  have hread := congrArg (ofDigits? 10) h
  rw [ofDigits?_fixed (by omega) (by omega), ofDigits?_fixed (by omega) (by omega),
    Nat.mod_eq_of_lt hm, Nat.mod_eq_of_lt hn] at hread
  exact Option.some.inj hread

/-- Numerals of one `width` come one after the other as their numbers do. -/
theorem fixed_lt_fixed_iff {width m n : Nat} (hm : m < 10 ^ width) (hn : n < 10 ^ width) :
    fixed 10 width m < fixed 10 width n ↔ m < n := by
  induction width generalizing m n with
  | zero =>
    rw [Nat.pow_zero] at hm hn
    simp [fixed]
    omega
  | succ width ih =>
    have hm' : m / 10 < 10 ^ width := Nat.div_lt_of_lt_mul (by rwa [Nat.pow_succ'] at hm)
    have hn' : n / 10 < 10 ^ width := Nat.div_lt_of_lt_mul (by rwa [Nat.pow_succ'] at hn)
    rw [fixed, fixed, append_lt_append_iff (by simp), ih hm' hn', fixed_inj hm' hn',
      List.cons_lt_cons_iff,
      digit_lt_digit_iff (Nat.mod_lt _ (by omega)) (Nat.mod_lt _ (by omega))]
    simp only [List.not_lt_nil, and_false, or_false]
    omega

/-- Numerals of one `width` compare before what follows them. -/
theorem fixed_append_lt_iff {width m n : Nat} (hm : m < 10 ^ width) (hn : n < 10 ^ width) (c : Char)
    (x y : List Char) : fixed 10 width m ++ c :: x < fixed 10 width n ++ c :: y ↔
      m < n ∨ m = n ∧ x < y := by
  rw [append_lt_append_iff (by simp), fixed_lt_fixed_iff hm hn, fixed_inj hm hn,
    List.cons_lt_cons_iff]
  simp

end Numeral

namespace Moment

/-- The year of `m` is written with four digits. -/
def Plain (m : Moment) : Prop := 0 ≤ m.year ∧ m.year ≤ 9999

theorem yearText_of_plain {m : Moment} (h : m.Plain) :
    yearText m.year = Numeral.fixed 10 4 m.year.natAbs := by
  obtain ⟨hlow, hhigh⟩ := h
  rw [yearText, if_pos ⟨hlow, hhigh⟩, Numeral.padded_eq_fixed (by omega)]

/-- One moment is before another by the first field in which they differ. -/
theorem compare_eq_lt_iff (a b : Moment) : compare a b = .lt ↔
    a.year < b.year ∨ a.year = b.year ∧ (a.month < b.month ∨ a.month = b.month ∧
      (a.day < b.day ∨ a.day = b.day ∧ (a.hour < b.hour ∨ a.hour = b.hour ∧
        (a.minute < b.minute ∨ a.minute = b.minute ∧ (a.second < b.second ∨ a.second = b.second ∧
          a.micro < b.micro))))) := by
  change ((compare a.year b.year).then _) = .lt ↔ _
  simp only [Ordering.then_eq_lt, compare_lt_iff_lt, compare_eq_iff_eq]

/-- What stands behind the year in the written form. -/
def yearless (m : Moment) : List Char :=
  Numeral.fixed 10 2 m.month ++ '-' :: (Numeral.fixed 10 2 m.day ++ 'T' ::
    (Numeral.fixed 10 2 m.hour ++ ':' :: (Numeral.fixed 10 2 m.minute ++ ':' ::
      (Numeral.fixed 10 2 m.writtenSecond ++ '.' :: Numeral.fixed 10 6 m.writtenMicro))))

theorem chars_eq (m : Moment) : m.chars = yearText m.year ++ '-' :: m.yearless := by
  simp only [chars, yearless, List.append_assoc, List.cons_append]

/-- The second and the microsecond of settled moments are in the order in which they are written. -/
theorem written_lt_written_iff {a b : Moment} (ha : a.Settled) (hb : b.Settled) :
    (a.writtenSecond < b.writtenSecond ∨ a.writtenSecond = b.writtenSecond ∧
      a.writtenMicro < b.writtenMicro) ↔
    (a.second < b.second ∨ a.second = b.second ∧ a.micro < b.micro) := by
  have hsecond := a.second_lt
  have hsecond' := b.second_lt
  have hmicro := a.micro_lt
  have hmicro' := b.micro_lt
  unfold writtenSecond writtenMicro
  unfold Settled at ha hb
  omega

/-- Behind the year, the texts of settled moments are in the order of the moments. -/
theorem yearless_lt_yearless_iff {a b : Moment} (ha : a.Settled) (hb : b.Settled) :
    a.yearless < b.yearless ↔
      a.month < b.month ∨ a.month = b.month ∧ (a.day < b.day ∨ a.day = b.day ∧
        (a.hour < b.hour ∨ a.hour = b.hour ∧ (a.minute < b.minute ∨ a.minute = b.minute ∧
          (a.second < b.second ∨ a.second = b.second ∧ a.micro < b.micro)))) := by
  have hmonth (m : Moment) : m.month < 10 ^ 2 := by have := m.month_mem; omega
  have hday (m : Moment) : m.day < 10 ^ 2 := by have := m.day_lt; omega
  have hhour (m : Moment) : m.hour < 10 ^ 2 := by have := m.hour_lt; omega
  have hminute (m : Moment) : m.minute < 10 ^ 2 := by have := m.minute_lt; omega
  have hsecond (m : Moment) : m.writtenSecond < 10 ^ 2 := by
    have := m.second_lt
    have := m.micro_lt
    unfold writtenSecond
    omega
  have hmicro (m : Moment) : m.writtenMicro < 10 ^ 6 := Nat.mod_lt _ (by omega)
  rw [yearless, yearless, Numeral.fixed_append_lt_iff (hmonth a) (hmonth b),
    Numeral.fixed_append_lt_iff (hday a) (hday b), Numeral.fixed_append_lt_iff (hhour a) (hhour b),
    Numeral.fixed_append_lt_iff (hminute a) (hminute b),
    Numeral.fixed_append_lt_iff (hsecond a) (hsecond b),
    Numeral.fixed_lt_fixed_iff (hmicro a) (hmicro b), written_lt_written_iff ha hb]

/-- The written forms of settled moments come one after the other as the moments do. -/
theorem chars_lt_chars {a b : Moment} (ha : a.Plain) (hb : b.Plain) (hsettled : a.Settled)
    (hsettled' : b.Settled) : a.chars < b.chars ↔ compare a b = .lt := by
  have hyear {m : Moment} (h : m.Plain) : m.year.natAbs < 10 ^ 4 := by
    obtain ⟨hlow, hhigh⟩ := h
    omega
  rw [compare_eq_lt_iff, chars_eq, chars_eq, yearText_of_plain ha, yearText_of_plain hb,
    Numeral.fixed_append_lt_iff (hyear ha) (hyear hb),
    yearless_lt_yearless_iff hsettled hsettled']
  obtain ⟨ha, -⟩ := ha
  obtain ⟨hb, -⟩ := hb
  have hlt : a.year.natAbs < b.year.natAbs ↔ a.year < b.year := by omega
  have heq : a.year.natAbs = b.year.natAbs ↔ a.year = b.year := by omega
  rw [hlt, heq]

/-! ## Instants -/

/-- The date of an instant, as long as it is in the calendar. -/
theorem ofMicros_of_year {t : Nat} (h : (Calendar.yearOf 1970 (t / microsPerDay)).1 ≤ 262142) :
    let date := Calendar.yearOf 1970 (t / microsPerDay)
    let day := Calendar.monthOf date.1 11 1 date.2
    let rest := t % microsPerDay
    (ofMicros t).year = date.1 ∧ (ofMicros t).month = day.1 ∧ (ofMicros t).day = day.2 + 1 ∧
      (ofMicros t).hour = rest / 1000000 / 3600 ∧
      (ofMicros t).minute = rest / 1000000 / 60 % 60 ∧
      (ofMicros t).second = rest / 1000000 % 60 ∧ (ofMicros t).micro = rest % 1000000 := by
  intro date day rest
  have hyear : 1970 ≤ date.1 := Calendar.le_yearOf 1970 (t / microsPerDay)
  have hmonth := Calendar.monthOf_mem date.1 11 1 date.2
  have hday : day.2 < Calendar.monthLength date.1 day.1 := by
    refine Calendar.monthOf_lt date.1 ?_
    rw [Calendar.monthsLength_year]
    exact Calendar.yearOf_lt _ _
  have hrest : rest < microsPerDay := Nat.mod_lt _ (by decide)
  rw [microsPerDay] at hrest
  have hfields : ofMicros t = (ofFields? date.1 day.1 (day.2 + 1) (rest / 1000000 / 3600)
    (rest / 1000000 / 60 % 60) (rest / 1000000 % 60) (rest % 1000000)).getD last := rfl
  have hvalid : (-262143 ≤ date.1 ∧ date.1 ≤ 262142) ∧ (1 ≤ day.1 ∧ day.1 ≤ 12) ∧
      (1 ≤ day.2 + 1 ∧ day.2 + 1 ≤ Calendar.monthLength date.1 day.1) ∧
      rest / 1000000 / 3600 < 24 ∧ rest / 1000000 / 60 % 60 < 60 ∧ rest / 1000000 % 60 < 60 ∧
      rest % 1000000 < 2000000 := by
    refine ⟨⟨by omega, h⟩, hmonth, ⟨by omega, hday⟩, ?_, ?_, ?_, ?_⟩ <;> omega
  rw [hfields, ofFields?, dif_pos hvalid]
  exact ⟨rfl, rfl, rfl, rfl, rfl, rfl, rfl⟩

/-- An instant beyond the calendar has the moment `last`. -/
theorem ofMicros_of_beyond {t : Nat}
    (h : 262142 < (Calendar.yearOf 1970 (t / microsPerDay)).1) : ofMicros t = last := by
  rw [ofMicros]
  simp only
  rw [ofFields?, dif_neg (by omega)]
  rfl

/-- The moment of an instant is in no leap second. -/
theorem settled_ofMicros (t : Nat) : (ofMicros t).Settled := by
  by_cases hyear : (Calendar.yearOf 1970 (t / microsPerDay)).1 ≤ 262142
  · obtain ⟨-, -, -, -, -, -, hmicro⟩ := ofMicros_of_year hyear
    exact .inl (hmicro ▸ Nat.mod_lt _ (by omega))
  · rw [ofMicros_of_beyond (by omega)]
    decide

/-- The day of an instant is in the calendar if the year of `ofMicros t` is at most 9999. -/
theorem yearOf_le_of_ofMicros {t : Nat} (h : (ofMicros t).year ≤ 9999) :
    (Calendar.yearOf 1970 (t / microsPerDay)).1 ≤ 262142 := by
  by_contra hbeyond
  rw [ofMicros_of_beyond (by omega)] at h
  exact absurd h (by decide)

/-- The hands of a clock face go on in the course of a day, from `s` to `s'`. -/
theorem face_lt_face {s s' : Nat} (h : s < s') :
    s / 1000000 / 3600 < s' / 1000000 / 3600 ∨ s / 1000000 / 3600 = s' / 1000000 / 3600 ∧
      (s / 1000000 / 60 % 60 < s' / 1000000 / 60 % 60 ∨
        s / 1000000 / 60 % 60 = s' / 1000000 / 60 % 60 ∧
        (s / 1000000 % 60 < s' / 1000000 % 60 ∨ s / 1000000 % 60 = s' / 1000000 % 60 ∧
          s % 1000000 < s' % 1000000)) := by
  omega

/-- Later instants are later moments. -/
theorem ofMicros_lt_ofMicros {j k : Nat} (h : j < k) (hk : (ofMicros k).year ≤ 9999) :
    compare (ofMicros j) (ofMicros k) = .lt := by
  have hdays : j / microsPerDay ≤ k / microsPerDay := Nat.div_le_div_right h.le
  have hlimit := yearOf_le_of_ofMicros hk
  rw [compare_eq_lt_iff]
  rcases Nat.lt_or_eq_of_le hdays with hday | hday
  · have hdate := Calendar.yearOf_lt_yearOf 1970 hday
    obtain ⟨hy, hm, hd, -⟩ := ofMicros_of_year (t := j) (by omega)
    obtain ⟨hy', hm', hd', -⟩ := ofMicros_of_year hlimit
    rw [hy, hy', hm, hm', hd, hd']
    rcases hdate with hyear | ⟨hyear, hplace⟩
    · exact .inl hyear
    · rw [hyear]
      have hmonth := Calendar.monthOf_lt_monthOf (Calendar.yearOf 1970 (k / microsPerDay)).1 11 1
        hplace
      omega
  · obtain ⟨hy, hm, hd, hhour, hminute, hsecond, hmicro⟩ :=
      ofMicros_of_year (t := j) (hday ▸ hlimit)
    obtain ⟨hy', hm', hd', hhour', hminute', hsecond', hmicro'⟩ := ofMicros_of_year hlimit
    have hrest : j % microsPerDay < k % microsPerDay := by
      have hj := Nat.div_add_mod j microsPerDay
      have hk := Nat.div_add_mod k microsPerDay
      rw [hday] at hj
      omega
    rw [hy, hy', hm, hm', hd, hd', hday, hhour, hhour', hminute, hminute', hsecond, hsecond',
      hmicro, hmicro']
    exact .inr ⟨rfl, .inr ⟨rfl, .inr ⟨rfl, face_lt_face hrest⟩⟩⟩

theorem le_year_ofMicros (t : Nat) : 0 ≤ (ofMicros t).year := by
  by_cases hyear : (Calendar.yearOf 1970 (t / microsPerDay)).1 ≤ 262142
  · have := Calendar.le_yearOf 1970 (t / microsPerDay)
    rw [(ofMicros_of_year hyear).1]
    omega
  · rw [ofMicros_of_beyond (by omega)]
    decide

/-- An instant is written with a year of four digits if a later one is. -/
theorem plain_ofMicros {j k : Nat} (h : j ≤ k) (hk : (ofMicros k).year ≤ 9999) :
    (ofMicros j).Plain := by
  refine ⟨le_year_ofMicros j, ?_⟩
  rcases Nat.lt_or_eq_of_le h with h | rfl
  · have hyear := (compare_eq_lt_iff _ _).1 (ofMicros_lt_ofMicros h hk)
    omega
  · exact hk

end Moment

namespace Timestamp

/-- The timestamp of the instant `t`, in microseconds after the start of 1970. -/
def ofMicros (t : Nat) : Timestamp := ofMoment (Moment.ofMicros t)

/-- The timestamps of later instants are later as texts. -/
theorem ofMicros_lt_ofMicros {j k : Nat} (h : j < k) (hk : (Moment.ofMicros k).year ≤ 9999) :
    (ofMicros j).text < (ofMicros k).text := by
  have hchars := (Moment.chars_lt_chars (Moment.plain_ofMicros h.le hk)
    (Moment.plain_ofMicros le_rfl hk) (Moment.settled_ofMicros j) (Moment.settled_ofMicros k)).2
    (Moment.ofMicros_lt_ofMicros h hk)
  rw [String.lt_iff_toList_lt]
  change (Moment.text _).toList < (Moment.text _).toList
  rwa [Moment.toList_text, Moment.toList_text]

/-- What has the earlier `time` comes first, whatever else is compared. -/
theorem compareLex_of_text_lt {ρ : Type} {time : ρ → Timestamp} {cmp : ρ → ρ → Ordering} {a b : ρ}
    (h : (time a).text < (time b).text) : compareLex (compareOn time) cmp a b = .lt := by
  have htime : compareOn time a b = .lt := compare_lt_iff_lt.2 h
  rw [compareLex, htime]
  rfl

end Timestamp

/-! ## Clocks -/

namespace Clock

/-- The clock `c` has issued the instant `t` or a later one. -/
def Reached (c : Clock) (t : Nat) : Prop := ∃ last, c.last = some last ∧ t ≤ last

theorem reached_tick (c : Clock) : c.tick.2.Reached c.tick.1 := ⟨_, rfl, Nat.le_refl _⟩

/-- The next instant is later than all that were reached. -/
theorem Reached.lt_tick {c : Clock} {t : Nat} (h : c.Reached t) : t < c.tick.1 := by
  obtain ⟨last, hlast, hle⟩ := h
  refine Nat.lt_of_le_of_lt hle ?_
  rw [tick, hlast]
  exact lt_after _ _

/-- All instants that the clock `c` has issued are in years of at most four digits. -/
def Plain (c : Clock) : Prop :=
  ∀ last, c.last = some last → (Moment.ofMicros last).year ≤ 9999

instance (c : Clock) : Decidable c.Plain :=
  inferInstanceAs (Decidable (∀ last ∈ c.last, (Moment.ofMicros last).year ≤ 9999))

/-- A clock that has not got beyond the year 9999 had not done so before. -/
theorem Plain.of_reached {c c' : Clock} (h : c'.Plain)
    (hc : ∀ t, c.Reached t → c'.Reached t) : c.Plain := by
  intro last hlast
  obtain ⟨last', hlast', hle⟩ := hc last ⟨last, hlast, Nat.le_refl _⟩
  exact (Moment.plain_ofMicros hle (h last' hlast')).2

/-- The timestamps of instants that were issued are in the order of the instants. -/
theorem Plain.text_lt {c : Clock} (h : c.Plain) {j k : Nat} (hk : c.Reached k) (hjk : j < k) :
    (Timestamp.ofMicros j).text < (Timestamp.ofMicros k).text := by
  obtain ⟨last, hlast, hle⟩ := hk
  exact Timestamp.ofMicros_lt_ofMicros hjk (Moment.plain_ofMicros hle (h last hlast)).2

/-- A clock does not go back when it issues `n` timestamps. -/
theorem Reached.issue {c : Clock} {t : Nat} (h : c.Reached t) (n : Nat) :
    (issue n c).2.Reached t := by
  induction n generalizing c with
  | zero => exact h
  | succ n ih =>
    rw [issue_succ]
    exact ih ⟨_, rfl, h.lt_tick.le⟩

/-- What a clock issues comes as a text after every instant that was `Reached`. -/
theorem Reached.lt_issue {c : Clock} {t : Nat} (h : c.Reached t) {n : Nat}
    (hplain : (Clock.issue n c).2.Plain) :
    ∀ s ∈ (Clock.issue n c).1, (Timestamp.ofMicros t).text < s.text := by
  induction n generalizing c with
  | zero => exact List.forall_mem_nil _
  | succ n ih =>
    rw [issue_succ] at hplain ⊢
    refine List.forall_mem_cons.2 ⟨?_, ih ⟨_, rfl, h.lt_tick.le⟩ hplain⟩
    exact hplain.text_lt (c.reached_tick.issue n) h.lt_tick

/-- The timestamps of `issue` increase as texts. -/
theorem pairwise_issue {n : Nat} {c : Clock} (hplain : (issue n c).2.Plain) :
    (issue n c).1.Pairwise fun s s' => s.text < s'.text := by
  induction n generalizing c with
  | zero => exact .nil
  | succ n ih =>
    rw [issue_succ] at hplain ⊢
    exact List.pairwise_cons.2 ⟨c.reached_tick.lt_issue hplain, ih hplain⟩

/-- The clock `c` has issued the timestamps in `times`, each at a later instant than the one before
it. -/
def Dealt (c : Clock) (times : List Timestamp) : Prop :=
  ∃ instants : List Nat, times = instants.map .ofMicros ∧ instants.Pairwise (· < ·) ∧
    ∀ k ∈ instants, c.Reached k

namespace Dealt

variable {c c' : Clock} {times : List Timestamp}

theorem nil (c : Clock) : c.Dealt [] := ⟨[], rfl, .nil, List.forall_mem_nil _⟩

theorem mono (h : c.Dealt times) (hc : ∀ t, c.Reached t → c'.Reached t) : c'.Dealt times := by
  obtain ⟨instants, heq, hlt, hreached⟩ := h
  exact ⟨instants, heq, hlt, fun k hk => hc k (hreached k hk)⟩

/-- The timestamp of `now` comes after those in `times`. -/
theorem tick (h : c.Dealt times) : c.tick.2.Dealt (times ++ [c.now.1]) := by
  obtain ⟨instants, rfl, hlt, hreached⟩ := h
  refine ⟨instants ++ [c.tick.1], by rw [List.map_append]; rfl, ?_, ?_⟩
  · refine List.pairwise_append.2 ⟨hlt, List.pairwise_singleton _ _, fun k hk l hl => ?_⟩
    rw [List.mem_singleton.1 hl]
    exact (hreached k hk).lt_tick
  · refine List.forall_mem_append.2 ⟨fun k hk => ?_, List.forall_mem_singleton.2 c.reached_tick⟩
    exact ⟨_, rfl, (hreached k hk).lt_tick.le⟩

/-- As long as the clock has not got beyond the year 9999, the timestamps in `times` increase as
texts. -/
theorem increasing (h : c.Dealt times) (hplain : c.Plain) :
    times.Pairwise fun s s' => s.text < s'.text := by
  obtain ⟨instants, rfl, hlt, hreached⟩ := h
  refine List.pairwise_map.2 (hlt.imp_of_mem fun {j k} _ hk hjk => ?_)
  exact hplain.text_lt (hreached k hk) hjk

end Dealt

end Clock

end Propagation
