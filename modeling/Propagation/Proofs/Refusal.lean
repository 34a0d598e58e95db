import Propagation.Proofs.Conflict

/-!
# Requests that are refused

A request that is refused leaves nothing in the transaction. Nothing is stored, and it is not noted
either what the check has looked for and not found. A transaction that goes on after a refusal ends
as if it had not asked, even if what it missed has been committed in the meantime: two serializable
transactions can each miss a record that the other one stores, and both be committed.

To look a record up is different. That is noted whether or not there is a record, and the commit of
what was missed is a conflict.

## Main definitions

* `Trace.admitted`: the requests that were not refused.

## Main statements

* `Request.afterAll_admitted`: refused requests may as well not be asked.
* `World.commit_conflict_iff_admitted`: a commit depends on the admitted requests alone.
* `World.committed_skew`: a serializable transaction can be committed after one that stored what it
  missed.
-/

namespace Propagation

/-- The requests in `t` that were not refused, with their answers. -/
def Trace.admitted (t : Trace) : Trace := t.filter (·.2.isOk)

namespace Request

/-- Refused requests may as well not be asked: without them a transaction gives the same answers and
becomes the same. -/
theorem afterAll_admitted (rs : List Request) (tx : Transaction) :
    let asked := (trace rs tx).admitted.map Prod.fst
    afterAll asked tx = afterAll rs tx ∧ trace asked tx = (trace rs tx).admitted := by
  induction rs generalizing tx with
  | nil => exact ⟨rfl, rfl⟩
  | cons r rs ih =>
    obtain ⟨hafter, htrace⟩ := ih (r.after tx)
    cases hr : r.answer tx with
    | ok a =>
      have hadmitted : (trace (r :: rs) tx).admitted =
          (r, r.answer tx) :: (trace rs (r.after tx)).admitted := by
        rw [trace, Trace.admitted, List.filter_cons_of_pos (by rw [hr]; rfl), Trace.admitted]
      simp only [hadmitted, List.map_cons, afterAll_cons]
      exact ⟨hafter, by rw [trace, htrace]⟩
    | error e =>
      have hadmitted : (trace (r :: rs) tx).admitted = (trace rs (r.after tx)).admitted := by
        rw [trace, Trace.admitted, List.filter_cons_of_neg (by rw [hr]; exact Bool.false_ne_true),
          Trace.admitted]
      have hsame : r.after tx = tx := after_of_error (check_of_answer_error hr)
      rw [hsame] at hadmitted hafter htrace
      simp only [hadmitted, afterAll_cons, hsame]
      exact ⟨hafter, htrace⟩

end Request

/-- The `admitted` requests account for all of a session. -/
theorem Session.Traced.admitted {s : Session Trace} (h : s.Traced) :
    Session.Traced { s with note := s.note.admitted } := by
  obtain ⟨hafter, htrace⟩ := Request.afterAll_admitted (s.note.map Prod.fst) s.start
  rw [← h.note_eq] at hafter htrace
  exact ⟨h.tx_eq.trans hafter.symm, htrace.symm⟩

theorem Store.commit_eq_conflict_iff {store : Store} {tx : Transaction} :
    (store.commit tx).1 = .error (.conflict tx.id) ↔ store.conflicts tx := by
  cases hc : store.conflicts tx with
  | true => rw [commit_of_conflicts hc]; exact iff_of_true rfl rfl
  | false => rw [commit_of_not_conflicts hc]; exact iff_of_false nofun nofun

namespace World

/-- A commit depends on the admitted requests alone. A serializable transaction is, with all its
answers, what these make of its beginning, and it ends in a conflict exactly if another one was
committed since it began and had written something that they looked up or wrote, or something in a
table that they searched. So a record that was looked up in vain, and is committed before the
transaction is, makes for a conflict; one that a refused request missed does not. -/
theorem commit_conflict_iff_admitted (mint : Mint) (events : List Event) {name : Nat}
    {s : Session Trace} (hs : (run mint events).sessions name = some s)
    (hser : s.tx.isolation = .serializable) :
    let asked := s.note.admitted.map Prod.fst
    (s.tx = Request.afterAll asked s.start ∧ s.note.admitted = Request.trace asked s.start) ∧
    (((run mint events).store.commit s.tx).1 = .error (.conflict s.tx.id) ↔
      ∃ u ∈ (run mint events).log.drop s.began, ∃ k ∈ u.note.wrote,
        k ∈ s.note.admitted.looked ∨ k ∈ s.note.admitted.wrote ∨
          k.entity ∈ s.note.admitted.searched) ∧
    (∀ k, (.find k, .ok (.record none)) ∈ s.note →
      (∃ u ∈ (run mint events).log.drop s.began, k ∈ u.note.wrote) →
        ((run mint events).store.commit s.tx).1 = .error (.conflict s.tx.id)) := by
  have ht := traced_run mint events
  have htraced := (ht.sessions name s hs).admitted
  have hiff := ht.conflicts_iff_of_note (sound_run mint events) hs htraced
  simp only [hser, true_and] at hiff
  refine ⟨⟨htraced.tx_eq, htraced.note_eq⟩, Store.commit_eq_conflict_iff.trans hiff, ?_⟩
  rintro k hk ⟨u, hu, hwrote⟩
  have hadmitted : (.find k, .ok (.record none)) ∈ s.note.admitted := List.mem_filter.2 ⟨hk, rfl⟩
  have hlooked : k ∈ s.note.admitted.looked := List.mem_filterMap.2 ⟨_, hadmitted, rfl⟩
  exact Store.commit_eq_conflict_iff.2 (hiff.2 ⟨u, hu, k, hwrote, .inl hlooked⟩)

/-- Two transactions each try to store an info of a node that the other one then stores. -/
def skew : List Event :=
  [.begin 0 .readWrite .serializable, .begin 1 .readWrite .serializable,
    .ask 0 (.insert (.info (.numbered 2 1))), .ask 1 (.insert (.info (.numbered 3 0))),
    .ask 0 (.insert (.node (.numbered 0))), .ask 1 (.insert (.node (.numbered 1))), .commit 0]

/-- Each transaction misses the node that the other one stores, and both are committed. -/
theorem committed_skew : ∃ s u, (run .still skew).sessions 1 = some s ∧
    (run .still skew).log.drop s.began = [u] ∧
    s.tx.isolation = .serializable ∧ u.tx.isolation = .serializable ∧
    (.insert (.info (.numbered 3 0)), .error (.missing (.node ⟨0⟩))) ∈ s.note ∧
    .node ⟨0⟩ ∈ u.note.wrote ∧
    (.insert (.info (.numbered 2 1)), .error (.missing (.node ⟨1⟩))) ∈ u.note ∧
    .node ⟨1⟩ ∈ s.note.wrote ∧ ((run .still skew).store.commit s.tx).1 = .ok () :=
  ⟨_, _, rfl, rfl, rfl, rfl, .head _, .head _, .head _, .head _, rfl⟩

/-- The second of them does not depend on the node that it missed. -/
theorem commit_conflict_iff_admitted_skew : ∃ s, (run .still skew).sessions 1 = some s ∧
    s.tx.isolation = .serializable ∧ s.note.length = 2 ∧ s.note.admitted.length = 1 ∧
    ((run .still skew).store.commit s.tx).1 ≠ .error (.conflict s.tx.id) := by
  have hs : (run .still skew).sessions 1 = some _ := rfl
  refine ⟨_, hs, rfl, rfl, rfl, mt (commit_conflict_iff_admitted .still skew hs rfl).2.1.1 ?_⟩
  decide

end World

end Propagation
