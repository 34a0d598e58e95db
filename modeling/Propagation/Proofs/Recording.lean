import Propagation.Proofs.Alike
import Propagation.Proofs.Finality

/-!
# The account of writes explains the view

A commit throws the view of its transaction away, but for the records that the account of writes
names. So an operation that changed a record without an entry in this account would lose the change,
and an entry without a record would be passed over in silence. Neither can happen: what is in the
account is in the view, and everything else is there as it was in the snapshot.

If nobody else has written anything since the transaction began, the snapshot is still what is
committed, and a commit turns it into the view, with the vectors of each node in some order.

## Main definitions

* `World.Undisturbed`: nobody has written anything since a session began.

## Main statements

* `World.Sound.committed_eq_start`, `World.Sound.not_conflicts`: then the snapshot is still
  committed, and nothing is in the way of a commit.
* `World.Sound.same_view`: the commit leaves the view.
* `World.Reachable.account_of_writes`: the account, and what a commit makes of it.
-/

namespace Propagation.World

variable {α : Type} {w : World α}

/-- Whoever was committed since `s` began has written nothing. -/
def Undisturbed (w : World α) (s : Session α) : Prop := ∀ u ∈ w.log.drop s.began, u.tx.writes = []

namespace Sound

variable (h : w.Sound) {name : Nat} {s : Session α} (hs : w.sessions name = some s)
include h hs

/-- A record is committed as the view of `s` has it if `s` wrote it, and as it was before if not. -/
theorem find?_apply (k : Key) : (w.store.committed.apply s.tx).tables.find? k =
    if k ∈ s.tx.writes then s.tx.view.find? k else w.store.committed.tables.find? k := by
  split
  case isTrue hk => exact h.find?_apply_of_mem hs hk
  case isFalse hk => exact h.find?_apply_of_notMem hs hk

section Undisturbed

variable (hu : w.Undisturbed s)
include hu

/-- What is committed is still the snapshot of `s`. -/
theorem committed_eq_start : w.store.committed.tables = s.start.view := by
  have hlog : ∀ tx ∈ (w.log.map (·.tx)).drop s.began, tx.writes = [] := by
    rw [← List.map_drop]
    exact List.forall_mem_map.2 hu
  rw [h.committed_eq, Committed.ofLog_split s.began, Committed.applyAll_of_writes_nil hlog,
    (h.sessions name s hs).view_start]

/-- There is nobody with whom `s` could be in conflict. -/
theorem not_conflicts : w.store.conflicts s.tx = false := by
  rw [← Bool.not_eq_true, h.conflicts_iff hs]
  rintro ⟨-, u, hmem, k, hk, -⟩
  rw [hu u hmem] at hk
  cases hk

/-- A commit leaves the view of `s`. Both came of the snapshot and index what is new to it, so that
the records decide: those that were written are copied, and all others are as `s` found them. -/
theorem same_view : (w.store.committed.apply s.tx).tables.Same s.tx.view := by
  have hsound := h.sessions name s hs
  have hstart := h.committed_eq_start hs hu
  have hcopied := Committed.indexedOver_apply hsound.keyed_view w.store.committed
  rw [hstart] at hcopied
  refine hcopied.same hsound.becomes.indexed (.refl _) fun k => ?_
  rw [h.find?_apply hs]
  split
  case isTrue => rfl
  case isFalse hk => rw [hstart, hsound.find?_view hk]

end Undisturbed

end Sound

/-- Of every open transaction, whatever was done in it: the records under the keys in its account of
writes are in the view, so that a commit copies each of them, and none is passed over. What stands
under any other key, or that nothing does, is as in the snapshot, which is what was committed when
the transaction began. A transaction that may not write has no such account. Once the transaction is
committed, what it wrote is as in the view, and everything else as it was just before. If nobody has
written anything since it began, it is committed, and leaves the view. -/
theorem Reachable.account_of_writes (h : w.Reachable) {name : Nat} {s : Session α}
    (hs : w.sessions name = some s) :
    (∀ k ∈ s.tx.writes, ∃ r, r.key = k ∧ s.tx.view.find? k = some r ∧
      ∀ t, Tables.copy s.tx.view k t = t.put r) ∧
    s.start.view = (Committed.ofLog ((w.log.map (·.tx)).take s.began)).tables ∧
    (∀ k, k ∉ s.tx.writes → s.tx.view.find? k = s.start.view.find? k) ∧
    (s.tx.mode = .readOnly → s.tx.writes = []) ∧
    ((w.store.commit s.tx).1 = .ok () → ∀ k,
      (w.store.commit s.tx).2.committed.tables.find? k =
        if k ∈ s.tx.writes then s.tx.view.find? k else w.store.committed.tables.find? k) ∧
    (w.Undisturbed s → (w.store.commit s.tx).1 = .ok () ∧
      (w.store.commit s.tx).2.committed.tables.Same s.tx.view) := by
  have hsound := h.sound.sessions name s hs
  refine ⟨fun k => hsound.copy_eq_put, hsound.view_start, fun k => hsound.find?_view,
    hsound.writes_of_readOnly, fun hok => ?_, fun hu => ?_⟩
  · cases hc : w.store.conflicts s.tx with
    | true =>
      rw [Store.commit_of_conflicts hc] at hok
      cases hok
    | false =>
      rw [Store.commit_of_not_conflicts hc]
      exact h.sound.find?_apply hs
  · rw [Store.commit_of_not_conflicts (h.sound.not_conflicts hs hu)]
    exact ⟨rfl, h.sound.same_view hs hu⟩

/-- Two agents join a chain, in which a vector leads from the first to the second, and then the
first dies. Another transaction, which may not write, is committed meanwhile. -/
def chaining : World Unit :=
  ((((init .still).begin 0 .readWrite .serializable ()).begin 1 .readOnly .serializable ()).changing
    [.request (.insert (.network network)), .request (.insert (.node (.numbered 0))),
      .request (.insert (.node (.numbered 1))), .addAgent network (.numbered 0),
      .addAgent network (.numbered 1), .kill (.numbered 0)]).commit 1
where
  network : Network := ⟨⟨0⟩, .chain, .ofMoment .first⟩

/-- The vector between the agents is in the account, and so a commit copies it. The commit leaves
what the transaction sees: the dead agent, and a list in which the vector stands. -/
theorem account_of_writes_chaining : ∃ s, chaining.sessions 0 = some s ∧ chaining.log.length = 1 ∧
    s.tx.writes.length = 4 ∧
    (∃ r, r.key = .vector ⟨0⟩ ∧ s.tx.view.find? (.vector ⟨0⟩) = some r ∧
      ∀ t, Tables.copy s.tx.view (.vector ⟨0⟩) t = t.put r) ∧
    s.tx.view.find? (.node ⟨2⟩) = s.start.view.find? (.node ⟨2⟩) ∧
    s.tx.view.nodes[(⟨0⟩ : NodeId)]?.map (·.isAlive) = some false ∧
    s.tx.view.outgoing.getD ⟨0⟩ [] = [⟨0⟩] ∧
    (chaining.store.commit s.tx).1 = .ok () ∧
    (chaining.store.commit s.tx).2.committed.tables.Same s.tx.view := by
  have hopen : (chaining.sessions 0).isSome := by decide +kernel
  obtain ⟨s, hs⟩ := Option.isSome_iff_exists.1 hopen
  have hseen : ∀ s ∈ chaining.sessions 0, s.tx.writes.length = 4 ∧ .vector ⟨0⟩ ∈ s.tx.writes ∧
      .node ⟨2⟩ ∉ s.tx.writes ∧ s.tx.view.nodes[(⟨0⟩ : NodeId)]?.map (·.isAlive) = some false ∧
      s.tx.view.outgoing.getD ⟨0⟩ [] = [⟨0⟩] := by
    decide +kernel
  have hundisturbed : ∀ s ∈ chaining.sessions 0, ∀ u ∈ chaining.log.drop s.began,
      u.tx.writes = [] := by
    decide +kernel
  have h : chaining.Reachable :=
    .commit 1 (.changing (.begin 1 _ _ _ (.begin 0 _ _ _ (.init _))) _)
  obtain ⟨hlength, hvector, hnode, hdead, houtgoing⟩ := hseen s hs
  obtain ⟨hcopied, -, hsame, -, -, hcommit⟩ := Reachable.account_of_writes h hs
  exact ⟨s, hs, by decide +kernel, hlength, hcopied _ hvector, hsame _ hnode, hdead, houtgoing,
    hcommit (hundisturbed s hs)⟩

end Propagation.World
