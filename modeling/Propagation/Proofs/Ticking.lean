import Mathlib.Order.Monotone.Basic
import Mathlib.Data.Finset.Lattice.Fold
import Propagation.Proofs.Collation

/-!
# What a clock issues

A clock remembers the last instant only, but what it issues has a closed form over all readings so
far. Each reading is a lower bound that moves on by one microsecond with every later call, and the
clock issues the greatest of these bounds: the wall clock as long as that moves on, and a count of
microseconds from the latest point that it reached while it stands still or has gone back.

## Main definitions

* `Clock.instant`: the instant of a call.
* `Clock.Kept`: a clock that has issued these instants.

## Main statements

* `Clock.instant_succ`: an instant in terms of the one before it.
* `Clock.Kept.tick`, `Clock.Kept.issue`: a clock issues these instants, in one call and in any
  number.
* `Clock.issue_instants`: what a new clock issues.
-/

namespace Propagation.Clock

variable {wall : Nat → Nat} {c : Clock}

/-- The instant that the call after `k` others issues: the greatest of all readings, each cut to
microseconds and moved on by one microsecond for every call since. -/
def instant (wall : Nat → Nat) (k : Nat) : Nat :=
  (Finset.range (k + 1)).sup fun i => wall i / 1000 + (k - i)

theorem instant_zero (wall : Nat → Nat) : instant wall 0 = wall 0 / 1000 := by
  simp [instant]

/-- Every reading `i` up to the call `k` is a lower bound of `instant wall k`. -/
theorem le_instant (wall : Nat → Nat) {i k : Nat} (h : i ≤ k) :
    wall i / 1000 + (k - i) ≤ instant wall k :=
  Finset.le_sup (f := fun i => wall i / 1000 + (k - i)) (Finset.mem_range.2 (by omega))

/-- One of the readings up to the call `k` is issued as `instant wall k`. -/
theorem exists_eq_instant (wall : Nat → Nat) (k : Nat) :
    ∃ i ≤ k, instant wall k = wall i / 1000 + (k - i) := by
  obtain ⟨i, hi, heq⟩ := Finset.exists_mem_eq_sup (Finset.range (k + 1)) (by simp)
    fun i => wall i / 1000 + (k - i)
  exact ⟨i, Nat.le_of_lt_succ (Finset.mem_range.1 hi), heq⟩

/-- The next instant is the next reading, or one microsecond after `instant wall k`. -/
theorem instant_succ (wall : Nat → Nat) (k : Nat) :
    instant wall (k + 1) = max (instant wall k + 1) (wall (k + 1) / 1000) := by
  refine Nat.le_antisymm ?_ (Nat.max_le.2 ⟨?_, ?_⟩)
  · obtain ⟨i, hi, heq⟩ := exists_eq_instant wall (k + 1)
    rcases Nat.lt_or_eq_of_le hi with hlt | rfl
    · have hle := le_instant wall (Nat.le_of_lt_succ hlt)
      omega
    · omega
  · obtain ⟨i, hi, heq⟩ := exists_eq_instant wall k
    have hle := le_instant wall (Nat.le_add_right_of_le hi : i ≤ k + 1)
    omega
  · have hle := le_instant wall (Nat.le_refl (k + 1))
    omega

theorem strictMono_instant (wall : Nat → Nat) : StrictMono (instant wall) :=
  strictMono_nat_of_lt_succ fun k => by rw [instant_succ]; omega

/-- With as many calls as the clock `c` was read, it has issued the instants of these calls. -/
def Kept (c : Clock) : Prop :=
  c.last = match c.reads with
    | 0 => none
    | k + 1 => some (instant c.wall k)

theorem kept_new (wall : Nat → Nat) : Kept { wall } := rfl

/-- A call of `tick` issues the instant of the call, and leaves the clock `Kept`. -/
theorem Kept.tick (h : c.Kept) : c.tick.1 = instant c.wall c.reads ∧ c.tick.2.Kept := by
  have hnext : c.tick.1 = instant c.wall c.reads := by
    obtain ⟨wall, reads, last⟩ := c
    unfold Kept at h
    cases reads with
    | zero =>
      rw [instant_zero]
      simp only at h
      rw [Clock.tick, h, after]
    | succ k =>
      simp only at h
      rw [Clock.tick, h, after, instant_succ]
      simp only
      split_ifs <;> omega
  exact ⟨hnext, congrArg some hnext⟩

/-- The calls that `issue n` makes in a row issue their instants. -/
theorem Kept.issue (h : c.Kept) (n : Nat) :
    (issue n c).1 = (List.range' c.reads n).map fun k => .ofMicros (instant c.wall k) := by
  induction n generalizing c with
  | zero => rfl
  | succ n ih =>
    obtain ⟨hnext, hkept⟩ := h.tick
    rw [issue_succ, List.range'_succ, List.map_cons, show c.now.2 = c.tick.2 from rfl, ih hkept]
    exact congrArg (Timestamp.ofMicros · :: _) hnext

theorem issue_new (wall : Nat → Nat) (n : Nat) :
    (Clock.issue n { wall }).1 = (List.range n).map fun k => .ofMicros (instant wall k) := by
  rw [(kept_new wall).issue, List.range_eq_range']

/-- Whatever the wall clock `wall` shows, the calls of a new clock issue their instants. As long as
these are before the year 10000, each timestamp has 26 characters and comes after all earlier ones,
as texts, and never before the reading that was made for it. -/
theorem issue_instants (wall : Nat → Nat) (n : Nat)
    (hyear : ∀ t ∈ (issue n { wall }).1, t.moment.year < 10000) :
    (issue n { wall }).1 = (List.range n).map (fun k => .ofMicros (instant wall k)) ∧
    (issue n { wall }).1.Pairwise (fun t t' => t.text < t'.text) ∧
    ∀ k < n, ∃ t, (issue n { wall }).1[k]? = some t ∧
      t.moment = .ofMicros (instant wall k) ∧ t.text.length = 26 ∧
      wall k / 1000 ≤ instant wall k ∧ (Timestamp.ofMicros (wall k / 1000)).text ≤ t.text := by
  have hissue := issue_new wall n
  have hplain {k : Nat} (hk : k < n) : (Moment.ofMicros (instant wall k)).year ≤ 9999 := by
    have hlt := hyear _ (hissue ▸ List.mem_map_of_mem (List.mem_range.2 hk))
    rw [Timestamp.ofMicros, Timestamp.moment_ofMoment_of_settled (Moment.settled_ofMicros _)] at hlt
    omega
  refine ⟨hissue, ?_, fun k hk => ⟨.ofMicros (instant wall k), by rw [hissue]; simp [hk], ?_⟩⟩
  · rw [hissue, List.pairwise_map]
    refine List.pairwise_lt_range.imp_of_mem fun {j k} _ hk hjk => ?_
    exact Timestamp.ofMicros_lt_ofMicros (strictMono_instant wall hjk)
      (hplain (List.mem_range.1 hk))
  · have hreading : wall k / 1000 ≤ instant wall k := by
      simpa using le_instant wall (Nat.le_refl k)
    refine ⟨Timestamp.moment_ofMoment_of_settled (Moment.settled_ofMicros _), ?_, hreading, ?_⟩
    · exact (Moment.length_text_eq_iff _).2 (Moment.plain_ofMicros le_rfl (hplain hk))
    · rcases Nat.lt_or_eq_of_le hreading with hlt | heq
      · exact (Timestamp.ofMicros_lt_ofMicros hlt (hplain hk)).le
      · rw [heq]

/-- A wall clock that stands still just before the end of a year, goes back, and then jumps to the
end of a leap day and stays there. -/
def halting (k : Nat) : Nat :=
  [1483228799999998999, 1483228799999998999, 1483228799999998000, 1483228700000000000,
    1709251199999999000, 1709251199999999500][k]?.getD 0

theorem issue_instants_halting :
    (issue 6 { wall := halting }).1.map Timestamp.text = ["2016-12-31T23:59:59.999998",
      "2016-12-31T23:59:59.999999", "2017-01-01T00:00:00.000000", "2017-01-01T00:00:00.000001",
      "2024-02-29T23:59:59.999999", "2024-03-01T00:00:00.000000"] ∧
    (issue 6 { wall := halting }).1.Pairwise fun t t' => t.text < t'.text :=
  ⟨by decide +kernel, (issue_instants halting 6 (by decide +kernel)).2.1⟩

end Propagation.Clock
