/-!
# The calendar

The proleptic Gregorian calendar: lengths of months and years, and the date on which a day
falls that is given by its distance from the start of some year.

## Main definitions

* `Calendar.isLeap`, `Calendar.monthLength`, `Calendar.yearLength`.
* `Calendar.yearOf`: the year that a day falls in, with the day's place in that year.
* `Calendar.monthOf`: the month that a day of a year falls in, with its place in that month.

## Main statements

* `Calendar.yearOf_lt`, `Calendar.monthOf_lt`: a day lies in the year and in the month that it was
  put in.
-/

namespace Propagation.Calendar

/-- Whether `year` has a 29th of February. -/
def isLeap (year : Int) : Bool := year % 4 = 0 && (year % 100 != 0 || year % 400 = 0)

/-- The number of days of month `month` of the year `year`. -/
def monthLength (year : Int) (month : Nat) : Nat :=
  match month with
  | 2 => if isLeap year then 29 else 28
  | 4 | 6 | 9 | 11 => 30
  | _ => 31

/-- The number of days of the year `year`. -/
def yearLength (year : Int) : Nat := if isLeap year then 366 else 365

theorem yearLength_pos (year : Int) : 0 < yearLength year := by
  unfold yearLength; split <;> omega

/-- The year of the day that comes `days` days after the start of `year`, and the number of
days of that year before it. -/
def yearOf (year : Int) (days : Nat) : Int × Nat :=
  if days < yearLength year then (year, days)
  else yearOf (year + 1) (days - yearLength year)
termination_by days
decreasing_by
  have := yearLength_pos year
  omega

/-- The day that `yearOf` finds lies in the year that it finds. -/
theorem yearOf_lt (year : Int) (days : Nat) :
    (yearOf year days).2 < yearLength (yearOf year days).1 := by
  fun_induction yearOf year days with
  | case1 year days h => exact h
  | case2 year days h ih => exact ih

/-- The month of the day that comes `days` days after the start of `month`, and the number of
days of that month before it. At most `rest` months follow `month`. -/
def monthOf (year : Int) : (rest month days : Nat) → Nat × Nat
  | 0, month, days => (month, days)
  | rest + 1, month, days =>
    if days < monthLength year month then (month, days)
    else monthOf year rest (month + 1) (days - monthLength year month)

/-- The number of days of the months from `month` on, of which `rest` follow it. -/
def monthsLength (year : Int) : (rest month : Nat) → Nat
  | 0, month => monthLength year month
  | rest + 1, month => monthLength year month + monthsLength year rest (month + 1)

/-- The months of a year make up the year. -/
theorem monthsLength_year (year : Int) : monthsLength year 11 1 = yearLength year := by
  simp only [monthsLength, monthLength, yearLength]
  split <;> rfl

/-- The day that `monthOf` finds lies in the month that it finds. -/
theorem monthOf_lt (year : Int) {rest month days : Nat}
    (h : days < monthsLength year rest month) :
    (monthOf year rest month days).2 < monthLength year (monthOf year rest month days).1 := by
  induction rest generalizing month days with
  | zero => exact h
  | succ rest ih =>
    rw [monthOf]
    split
    · assumption
    · rename_i hd
      rw [monthsLength] at h
      exact ih (by omega)

theorem monthOf_mem (year : Int) (rest month days : Nat) :
    month ≤ (monthOf year rest month days).1 ∧ (monthOf year rest month days).1 ≤ month + rest := by
  induction rest generalizing month days with
  | zero => exact ⟨Nat.le_refl _, Nat.le_refl _⟩
  | succ rest ih =>
    rw [monthOf]
    split
    · exact ⟨Nat.le_refl _, Nat.le_add_right _ _⟩
    · obtain ⟨hl, hu⟩ := ih (month + 1) (days - monthLength year month)
      omega

end Propagation.Calendar
