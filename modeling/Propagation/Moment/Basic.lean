import Propagation.Calendar

/-!
# Moments

A moment is a date with a time of day in microseconds. A leap second has no number of its own: it
is the time from the millionth microsecond on of the second that it follows, which may be any
second, though the only leap seconds that a calendar knows follow the second 59. Moments are
ordered by their fields from the year down.

## Main definitions

* `Moment`: a date that exists, in the years −262143 to 262142, and a time of day.
* `Moment.ofMicros`: the moment so many microseconds after the start of 1970.
-/

namespace Propagation

/-- A date of the calendar with a time of day in microseconds. -/
structure Moment where
  /-- The year, counted astronomically: the year before the year 1 is the year 0. -/
  year : Int
  /-- The month, from 1. -/
  month : Nat
  /-- The day of the month, from 1. -/
  day : Nat
  /-- The hour. -/
  hour : Nat
  /-- The minute. -/
  minute : Nat
  /-- The second. -/
  second : Nat
  /-- The microsecond; from a million on it lies in a leap second that follows `second`. -/
  micro : Nat
  year_mem : -262143 ≤ year ∧ year ≤ 262142
  month_mem : 1 ≤ month ∧ month ≤ 12
  day_mem : 1 ≤ day ∧ day ≤ Calendar.monthLength year month
  hour_lt : hour < 24
  minute_lt : minute < 60
  second_lt : second < 60
  micro_lt : micro < 2000000
  deriving DecidableEq

namespace Moment

/-- The moment with the given fields, if there is one. -/
def ofFields? (year : Int) (month day hour minute second micro : Nat) : Option Moment :=
  if h : (-262143 ≤ year ∧ year ≤ 262142) ∧ (1 ≤ month ∧ month ≤ 12) ∧
      (1 ≤ day ∧ day ≤ Calendar.monthLength year month) ∧ hour < 24 ∧ minute < 60 ∧
      second < 60 ∧ micro < 2000000 then
    some ⟨year, month, day, hour, minute, second, micro, h.1, h.2.1, h.2.2.1, h.2.2.2.1,
      h.2.2.2.2.1, h.2.2.2.2.2.1, h.2.2.2.2.2.2⟩
  else none

/-- The first moment of the calendar. -/
def first : Moment :=
  ⟨-262143, 1, 1, 0, 0, 0, 0, by decide, by decide, by decide, by decide, by decide, by decide,
    by decide⟩

/-- The last moment of the calendar that is not in a leap second. -/
def last : Moment :=
  ⟨262142, 12, 31, 23, 59, 59, 999999, by decide, by decide, by decide, by decide, by decide,
    by decide, by decide⟩

/-- The number of microseconds of a day. -/
def microsPerDay : Nat := 86400000000

/-- The moment `t` microseconds after the start of 1970, and the last moment of the calendar
if `t` lies beyond it. -/
def ofMicros (t : Nat) : Moment :=
  let (year, dayOfYear) := Calendar.yearOf 1970 (t / microsPerDay)
  let (month, dayOfMonth) := Calendar.monthOf year 11 1 dayOfYear
  let rest := t % microsPerDay
  let seconds := rest / 1000000
  (ofFields? year month (dayOfMonth + 1) (seconds / 3600) (seconds / 60 % 60) (seconds % 60)
    (rest % 1000000)).getD last

/-- The fields of two moments, compared from the year down. -/
instance : Ord Moment where
  compare a b :=
    (compare a.year b.year).then <| (compare a.month b.month).then <|
    (compare a.day b.day).then <| (compare a.hour b.hour).then <|
    (compare a.minute b.minute).then <| (compare a.second b.second).then <|
    compare a.micro b.micro

end Moment

end Propagation
