import Propagation.Proofs.History

/-!
# When a commit ends in a conflict

The store decides about a conflict by counters: one version for each record, one for each table,
and the version at which a transaction began. Read off the history, what it decides is this: a
serializable transaction ends in a conflict if another one was committed since it began and had
written a record that the first one looked up or wrote, or a record of a table that it searched.
What a transaction looked up, searched and wrote is known from its trace.

## Main statements

* `World.Traced.conflicts_iff`: what the store decides, read off the traces.
* `World.commit_conflict_iff`: which commits end in a conflict.
-/

namespace Propagation

namespace World

/-- The store finds a conflict for what the traces have in common. Any trace that accounts for the
transaction of `s` will do. -/
theorem Traced.conflicts_iff_of_note {w : World Trace} (h : w.Traced) (hw : w.Sound) {name : Nat}
    {s : Session Trace} (hs : w.sessions name = some s) {note : Trace}
    (hnote : Session.Traced { s with note }) :
    w.store.conflicts s.tx ↔ s.tx.isolation = .serializable ∧ ∃ u ∈ w.log.drop s.began,
      ∃ k ∈ u.note.wrote, k ∈ note.looked ∨ k ∈ note.wrote ∨ k.entity ∈ note.searched := by
  have hsound : Session.Sound (w.log.map (·.tx)) { s with note } :=
    let hsession := hw.sessions name s hs
    ⟨hsession.began_le, hsession.start_eq, hsession.becomes⟩
  rw [hw.conflicts_iff hs]
  refine and_congr_right fun _ => exists_congr fun u => and_congr_right fun hu => ?_
  have hmem := List.mem_of_mem_drop hu
  have hreads : ∀ k, k ∈ s.tx.reads ↔ k ∈ note.looked := fun _ => hnote.mem_reads hsound
  have hwrites : ∀ k, k ∈ s.tx.writes ↔ k ∈ note.wrote := fun _ => hnote.mem_writes hsound
  have hscans : ∀ e, e ∈ s.tx.scans ↔ e ∈ note.searched := fun _ => hnote.mem_scans hsound
  simp only [Transaction.RestsOn, (h.log u hmem).mem_writes (hw.log u hmem), hreads, hwrites,
    hscans]

theorem Traced.conflicts_iff {w : World Trace} (h : w.Traced) (hw : w.Sound) {name : Nat}
    {s : Session Trace} (hs : w.sessions name = some s) :
    w.store.conflicts s.tx ↔ s.tx.isolation = .serializable ∧ ∃ u ∈ w.log.drop s.began,
      ∃ k ∈ u.note.wrote, k ∈ s.note.looked ∨ k ∈ s.note.wrote ∨ k.entity ∈ s.note.searched :=
  h.conflicts_iff_of_note hw hs (h.sessions name s hs)

/-- A serializable transaction ends in a conflict exactly if another one was committed since it
began and had written something that it looked up or wrote, or something in a table that it
searched. Without such a commit it is committed, in particular if there was no commit at all. -/
theorem commit_conflict_iff (mint : Mint) (events : List Event) {name : Nat} {s : Session Trace}
    (hs : (run mint events).sessions name = some s) (hser : s.tx.isolation = .serializable) :
    (((run mint events).store.commit s.tx).1 = .error (.conflict s.tx.id) ↔
      ∃ u ∈ (run mint events).log.drop s.began, ∃ k ∈ u.note.wrote,
        k ∈ s.note.looked ∨ k ∈ s.note.wrote ∨ k.entity ∈ s.note.searched) ∧
    (((run mint events).store.commit s.tx).1 = .ok () ↔
      ∀ u ∈ (run mint events).log.drop s.began, ∀ k ∈ u.note.wrote,
        k ∉ s.note.looked ∧ k ∉ s.note.wrote ∧ k.entity ∉ s.note.searched) ∧
    ((run mint events).log.length = s.began →
      ((run mint events).store.commit s.tx).1 = .ok ()) := by
  have hiff := (traced_run mint events).conflicts_iff (sound_run mint events) hs
  simp only [hser, true_and] at hiff
  cases hc : (run mint events).store.conflicts s.tx with
  | true =>
    rw [hc] at hiff
    obtain ⟨u, hu, k, hk, hmeet⟩ := hiff.1 rfl
    rw [Store.commit_of_conflicts hc]
    refine ⟨iff_of_true rfl ⟨u, hu, k, hk, hmeet⟩, iff_of_false nofun ?_, ?_⟩
    · intro hno
      obtain ⟨hlooked, hwrote, hsearched⟩ := hno u hu k hk
      rcases hmeet with hmeet | hmeet | hmeet
      · exact hlooked hmeet
      · exact hwrote hmeet
      · exact hsearched hmeet
    · intro hlen
      rw [← hlen, List.drop_length] at hu
      exact absurd hu List.not_mem_nil
  | false =>
    have hno := mt hiff.2 (by rw [hc]; nofun)
    rw [Store.commit_of_not_conflicts hc]
    refine ⟨iff_of_false nofun hno, iff_of_true rfl ?_, fun _ => rfl⟩
    intro u hu k hk
    refine ⟨?_, ?_, ?_⟩
    · intro hlooked
      exact hno ⟨u, hu, k, hk, .inl hlooked⟩
    · intro hwrote
      exact hno ⟨u, hu, k, hk, .inr (.inl hwrote)⟩
    · intro hsearched
      exact hno ⟨u, hu, k, hk, .inr (.inr hsearched)⟩

/-- Two transactions search the nodes, and each stores one; the first of them is committed. -/
def rivals : List Event :=
  [.begin 0 .readWrite .serializable, .begin 1 .readWrite .serializable,
    .ask 0 (.nodes {}), .ask 1 (.nodes {}), .ask 0 (.insert (.node (agent 0))),
    .ask 1 (.insert (.node (agent 1))), .commit 0]
where
  agent (n : Nat) : Node :=
    { id := ⟨.ofNat 128 n⟩, kind := .agent, creationTime := .ofMoment .first }

/-- The second of two transactions that search the nodes before they store one can not be
committed any more. -/
theorem commit_conflict_iff_rivals :
    ∃ s, (run .still rivals).sessions 1 = some s ∧ s.tx.isolation = .serializable ∧
      ((run .still rivals).store.commit s.tx).1 = .error (.conflict s.tx.id) := by
  have hs : (run .still rivals).sessions 1 = some _ := rfl
  refine ⟨_, hs, rfl, (commit_conflict_iff .still rivals hs rfl).1.2 ?_⟩
  exact ⟨_, .head _, .node ⟨0⟩, .head _, .inr (.inr (.head _))⟩

end World

end Propagation
