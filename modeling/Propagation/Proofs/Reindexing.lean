import Propagation.Proofs.Descent
import Propagation.Proofs.Overwriting

/-!
# Indexes after a commit

A commit stores vectors in tables that others have changed since the transaction began. A vector
that these tables know is not entered in the indexes again, on the understanding that the ends of a
vector never change. Inside a transaction they do not. But two transactions that began before either
was committed can both store a vector under one identifier, each with ends of its own. The later
commit then puts its vector in the place of the earlier one and leaves it listed at the ends of that
one.

Nothing else brings the indexes out of step.

## Main definitions

* `Tables.Displaced`: what a transaction wrote under an identifier has other ends than what the
  tables hold there.

## Main statements

* `Committed.linked_apply_iff`: when a commit keeps the indexes in step.
* `World.Reachable.linked_commit_iff`: the same for whatever can happen before the commit.
* `World.unlisted_crossing`: a vector that no search from its origin finds.
-/

namespace Propagation

open Std (ExtTreeMap)

namespace Tables

/-- The transaction `tx` wrote the vector `i` with ends that are not those of the vector that `t`
holds under this identifier. -/
def Displaced (t : Tables) (tx : Transaction) (i : VectorId) : Prop :=
  .vector i ∈ tx.writes ∧ ∃ new old : Vector, tx.view.find? (.vector i) = some (.vector new) ∧
    t.find? (.vector i) = some (.vector old) ∧
    ¬ (old.origin = new.origin ∧ old.destination = new.destination)

/-! ## What a commit enters -/

/-- Whatever the indexes of `t` list, those of `u` list as often. -/
structure Relisted (t u : Tables) : Prop where
  outgoing : ∀ n i, (t.outgoing.getD n []).count i ≤ (u.outgoing.getD n []).count i
  incoming : ∀ n i, (t.incoming.getD n []).count i ≤ (u.incoming.getD n []).count i

theorem Relisted.refl (t : Tables) : t.Relisted t :=
  ⟨fun _ _ => Nat.le_refl _, fun _ _ => Nat.le_refl _⟩

theorem Relisted.trans {t u v : Tables} (h : t.Relisted u) (h' : u.Relisted v) : t.Relisted v :=
  ⟨fun n i => Nat.le_trans (h.outgoing n i) (h'.outgoing n i),
    fun n i => Nat.le_trans (h.incoming n i) (h'.incoming n i)⟩

/-- To `enlist` a vector takes no other one out. -/
theorem count_le_enlist (v : VectorId) (m : NodeId) (index : ExtTreeMap NodeId (List VectorId))
    (n : NodeId) (i : VectorId) :
    (index.getD n []).count i ≤ ((enlist v m index).getD n []).count i := by
  rw [enlist, ExtTreeMap.getD_insert]
  split
  · rename_i hn
    rw [Std.compare_eq_iff_eq.1 hn, List.count_append]
    exact Nat.le_add_right _ _
  · exact Nat.le_refl _

/-- To `put` a record takes nothing out of the lists. -/
theorem relisted_put (t : Tables) (r : Record) : t.Relisted (t.put r) := by
  cases r with
  | vector v =>
    simp only [put, putVector, link]
    split
    · exact ⟨fun _ _ => Nat.le_refl _, fun _ _ => Nat.le_refl _⟩
    · exact ⟨count_le_enlist _ _ _, count_le_enlist _ _ _⟩
  | _ => exact ⟨fun _ _ => Nat.le_refl _, fun _ _ => Nat.le_refl _⟩

/-- To copy the record `r` of the transaction displaces no vector. -/
theorem not_displaced_put {t : Tables} {tx : Transaction} (h : ∀ i, ¬ t.Displaced tx i)
    (htx : tx.view.Keyed) {k : Key} {r : Record} (hr : tx.view.find? k = some r) (i : VectorId) :
    ¬ (t.put r).Displaced tx i := by
  rintro ⟨hi, new, old, hnew, hold, hends⟩
  rw [find?_put] at hold
  by_cases hk : r.key = .vector i
  · rw [if_pos hk] at hold
    cases hold
    rw [← htx k _ hr, hk] at hr
    rw [hr] at hnew
    cases hnew
    exact hends ⟨rfl, rfl⟩
  · rw [if_neg hk] at hold
    exact h i ⟨hi, new, old, hnew, hold, hends⟩

/-- To copy a vector `v` that is not displaced keeps the indexes in step. -/
theorem Linked.put_of_not_displaced {t : Tables} {tx : Transaction} (h : t.Linked)
    (hends : ∀ i, ¬ t.Displaced tx i) (htx : tx.view.Keyed) {k : Key} (hk : k ∈ tx.writes)
    {r : Record} (hr : tx.view.find? k = some r) : (t.put r).Linked := by
  refine h.put_of_ends fun v v' hv hv' => ?_
  subst hv
  have hkey := htx k _ hr
  subst hkey
  by_contra hother
  exact hends v.id ⟨hk, v, v', hr, find?_vector.2 hv', hother⟩

end Tables

namespace Committed

/-- A commit takes nothing out of the lists. -/
theorem relisted_apply (c : Committed) (tx : Transaction) :
    c.tables.Relisted (c.apply tx).tables := by
  apply apply_induction (Q := fun t => c.tables.Relisted t)
  · intro k _ t ht
    rw [Tables.copy]
    split
    · exact ht.trans (Tables.relisted_put t _)
    · exact ht
  · exact .refl _

/-- Where the indexes are in step, a commit keeps them so exactly if it displaces no vector. -/
theorem linked_apply_iff {c : Committed} {tx : Transaction} (h : c.tables.Linked)
    (htx : tx.view.Keyed) :
    (c.apply tx).tables.Linked ↔ ∀ i, ¬ c.tables.Displaced tx i := by
  constructor
  · -- A displaced vector is still listed at the ends that it had.
    rintro hafter i ⟨hi, new, old, hnew, hold, hends⟩
    have hfind := find?_apply htx c (.vector i)
    rw [if_pos hi, hnew, Option.some_or] at hfind
    have hv := Tables.find?_vector.1 hfind
    have hv' := Tables.find?_vector.1 hold
    have hmore := relisted_apply c tx
    have hout := hmore.outgoing old.origin i
    have hin := hmore.incoming old.destination i
    rw [h.count_outgoing, hafter.count_outgoing, hv, hv'] at hout
    rw [h.count_incoming, hafter.count_incoming, hv, hv'] at hin
    apply hends
    simp only [Option.any_some, decide_true, if_true, decide_eq_true_eq] at hout hin
    constructor
    · by_contra hne
      rw [if_neg (Ne.symm hne)] at hout
      cases hout
    · by_contra hne
      rw [if_neg (Ne.symm hne)] at hin
      cases hin
  · intro hends
    refine (apply_induction (Q := fun t => t.Linked ∧ ∀ i, ¬ t.Displaced tx i) ?_ ⟨h, hends⟩).1
    intro k hk t ⟨hlinked, hends⟩
    rw [Tables.copy]
    cases hr : tx.view.find? k with
    | none => exact ⟨hlinked, hends⟩
    | some r =>
      exact ⟨hlinked.put_of_not_displaced hends htx hk hr, Tables.not_displaced_put hends htx hr⟩

end Committed

namespace World

variable {α : Type} {w : World α}

/-- If the session `s` displaces a vector, it overwrites one. -/
theorem Sound.overwrites_of_displaced (h : w.Sound) {name : Nat} {s : Session α}
    (hs : w.sessions name = some s) {i : VectorId}
    (hi : w.store.committed.tables.Displaced s.tx i) : w.Overwrites s (.vector i) := by
  obtain ⟨hwrote, new, old, hnew, hold, hends⟩ := hi
  refine ((h.le_or_overwrites hs hwrote hold hnew).resolve_left fun hle => ?_).1
  exact hends ⟨(Vector.Le.origin hle).symm, (Vector.Le.destination hle).symm⟩

/-- A session `s` that has no conflict, if it is serializable, displaces no vector. -/
theorem Sound.not_displaced (h : w.Sound) {name : Nat} {s : Session α}
    (hs : w.sessions name = some s) (hser : s.tx.isolation = .serializable)
    (hc : w.store.conflicts s.tx = false) (i : VectorId) :
    ¬ w.store.committed.tables.Displaced s.tx i := by
  rintro ⟨hwrote, new, old, hnew, hold, hends⟩
  have hkey := (h.sessions name s hs).keyed_view _ _ hnew
  have hle : old.Le new := h.allowsAll hs hser hc _ hwrote _ hnew (.vector old) (hkey ▸ hold)
  exact hends ⟨hle.origin.symm, hle.destination.symm⟩

/-- In whatever world, if the indexes are in step with the vectors before a transaction ends with a
commit, they are so afterwards, unless it asked only for what is committed and displaces a vector:
it wrote a vector that another transaction, committed since it began, has written between other
nodes. Then they are out of step. -/
theorem Reachable.linked_commit_iff (h : w.Reachable) {name : Nat} {s : Session α}
    (hs : w.sessions name = some s) (hlinked : w.store.committed.tables.Linked) :
    (w.store.commit s.tx).2.committed.tables.Linked ↔
      ¬ (s.tx.isolation = .readCommitted ∧ ∃ i, w.Overwrites s (.vector i) ∧
        w.store.committed.tables.Displaced s.tx i) := by
  have hkeyed := (h.sound.sessions name s hs).keyed_view
  cases hiso : s.tx.isolation with
  | readCommitted =>
    rw [Store.commit_of_not_conflicts (Store.conflicts_readCommitted hiso w.store),
      Store.committed_publish, Committed.linked_apply_iff hlinked hkeyed]
    constructor
    · rintro hends ⟨-, i, -, hi⟩
      exact hends i hi
    · intro hno i hi
      exact hno ⟨rfl, i, h.sound.overwrites_of_displaced hs hi, hi⟩
  | serializable =>
    refine iff_of_true ?_ nofun
    cases hc : w.store.conflicts s.tx with
    | true =>
      rw [Store.commit_of_conflicts hc]
      exact hlinked
    | false =>
      rw [Store.commit_of_not_conflicts hc, Store.committed_publish,
        Committed.linked_apply_iff hlinked hkeyed]
      exact h.sound.not_displaced hs hiso hc

/-! ## Two vectors under one identifier -/

/-- Two transactions store a vector under the same identifier, one in each direction, and the first
of them is committed. A third one stores another vector. -/
def crossing : List Event :=
  [.begin 0 .readWrite .readCommitted, .ask 0 (.insert (.node (.numbered 0))),
    .ask 0 (.insert (.node (.numbered 1))), .commit 0,
    .begin 0 .readWrite .readCommitted, .begin 1 .readWrite .readCommitted,
    .begin 2 .readWrite .readCommitted, .ask 0 (.insert (.vector (.numbered 2 0 1))),
    .ask 1 (.insert (.vector (.numbered 2 1 0))), .ask 2 (.insert (.vector (.numbered 3 0 1))),
    .commit 0]

theorem linked_crossing : (run .still crossing).store.committed.tables.Linked :=
  (linked_run .still crossing (by decide)).committed

/-- The commit of the third transaction keeps the indexes in step. -/
theorem linked_commit_iff_crossing : ∃ s, (run .still crossing).sessions 2 = some s ∧
    (run .still crossing).store.committed.tables.Linked ∧
    ((run .still crossing).store.commit s.tx).2.committed.tables.Linked := by
  have hs : (run .still crossing).sessions 2 = some _ := rfl
  have hiff := Reachable.linked_commit_iff (reachable_run .still crossing) hs linked_crossing
  refine ⟨_, hs, linked_crossing, hiff.2 ?_⟩
  rintro ⟨-, i, ⟨hi, u, hu, hwrote⟩, -⟩
  cases List.mem_singleton.1 hi
  cases List.mem_singleton.1 hu
  revert hwrote
  decide

/-- The commit of the second transaction does not. Its vector leaves the second node, and no search
from there finds it. -/
theorem unlisted_crossing : ∃ s, (run .still crossing).sessions 1 = some s ∧
    (run .still crossing).store.committed.tables.Linked ∧
    ((run .still crossing).store.commit s.tx).1 = .ok () ∧
    let t := ((run .still crossing).store.commit s.tx).2.committed.tables
    t.vectors[(⟨2⟩ : VectorId)]? = some (.numbered 2 1 0) ∧
      t.selectVectors { origin := some ⟨1⟩ } = [] ∧ ¬ t.Linked := by
  refine ⟨_, rfl, linked_crossing, rfl, rfl, rfl, fun hlinked => ?_⟩
  have hcount := hlinked.count_outgoing ⟨1⟩ ⟨2⟩
  revert hcount
  decide

end World

end Propagation
