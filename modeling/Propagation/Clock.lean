import Propagation.Timestamp

/-!
# The clock

A clock issues timestamps that increase strictly. It follows the wall clock, cut to
microseconds, and when the wall clock has not moved past the last instant it issued, it goes
on by one microsecond. The readings of the wall clock are a parameter: they may stand still,
jump and go back, but none lies before 1970.

## Main definitions

* `Clock`: the readings of a wall clock, how many were used, and the last issued instant.
* `Clock.tick`: issue an instant.
* `Clock.now`: issue a timestamp.

## Main statements

* `Clock.tick_lt_tick`: each instant comes after the one before it.
-/

namespace Propagation

/-- A clock that never issues an instant twice. -/
structure Clock where
  /-- The successive readings of the wall clock, in nanoseconds after the start of 1970. -/
  wall : Nat → Nat
  /-- How many readings were used. -/
  reads : Nat := 0
  /-- The last issued instant, in microseconds after the start of 1970. -/
  last : Option Nat := none

namespace Clock

/-- The instant to issue on the reading `seen`, after the instant `last` if there is one. -/
def after (last : Option Nat) (seen : Nat) : Nat :=
  match last with
  | some previous => if seen ≤ previous then previous + 1 else seen
  | none => seen

theorem lt_after (previous seen : Nat) : previous < after (some previous) seen := by
  simp only [after]
  split <;> omega

/-- Read the wall clock once and issue an instant. -/
def tick (c : Clock) : Nat × Clock :=
  let next := after c.last (c.wall c.reads / 1000)
  (next, { c with reads := c.reads + 1, last := some next })

/-- A `tick` issues a later instant than the `tick` before it. -/
theorem tick_lt_tick (c : Clock) : c.tick.1 < c.tick.2.tick.1 := lt_after _ _

/-- The reading of `tick` as a timestamp. -/
def now (c : Clock) : Timestamp × Clock :=
  let (t, c) := c.tick
  (.ofMoment (.ofMicros t), c)

/-- Issue `n` timestamps in a row. -/
def issue : Nat → Clock → List Timestamp × Clock
  | 0, c => ([], c)
  | n + 1, c =>
    let (t, c) := c.now
    let (rest, c) := issue n c
    (t :: rest, c)

theorem issue_succ (n : Nat) (c : Clock) :
    issue (n + 1) c = (c.now.1 :: (issue n c.now.2).1, (issue n c.now.2).2) := rfl

end Clock

end Propagation
