import Propagation.Proofs.Order

/-!
# What records refer to

Whatever a record refers to is there: a new record is checked for it, a new version of a record
refers to the same or is checked again, and no record ever disappears. This holds of every view and
of what is committed, although a commit copies only some of the records of a view: the others were
in the snapshot, and what was in the snapshot is still committed.

## Main definitions

* `Tables.Closed`: all that is referred to is there.

## Main statements

* `Request.references_of_writes`: what a request stores refers to what is there.
* `World.Reachable.closed`: views and committed tables are closed.
-/

namespace Propagation

namespace Tables

/-- Whatever a record in `t` refers to is there. -/
def Closed (t : Tables) : Prop := ∀ k r, t.find? k = some r → ∀ l ∈ r.references, t.has l

theorem closed_empty : ({} : Tables).Closed := by
  intro k r hr
  cases k <;> simp [find?] at hr

theorem Closed.put {t : Tables} (h : t.Closed) {r : Record} (hr : ∀ l ∈ r.references, t.has l) :
    (t.put r).Closed := by
  intro k s hs l hl
  rw [find?_put] at hs
  refine has_put_of_has ?_ r
  by_cases hk : r.key = k
  · rw [if_pos hk] at hs
    cases hs
    exact hr l hl
  · rw [if_neg hk] at hs
    exact h k s hs l hl

end Tables

/-- Apart from the network of a node, what a record refers to never changes from `old` to `new`. -/
theorem Record.Le.references_eq {old new : Record} (h : old.Le new)
    (hnode : ∀ n, new ≠ .node n) : new.references = old.references := by
  cases old <;> cases new <;> first | exact h.elim | skip
  · cases h; rfl
  · exact absurd rfl (hnode _)
  · have hle : Vector.Le _ _ := h
    simp only [references, hle.origin, hle.destination]
  · have hle : Info.Le _ _ := h
    simp only [references, hle.origin]
  · have hle : Transmission.Le _ _ := h
    simp only [references, hle.info, hle.destination]
  · cases h; rfl

/-- A new record `r` that is accepted refers to what is there. -/
theorem Record.references_of_accept {t : Tables} {r : Record} (h : r.accept t = .ok ()) :
    ∀ l ∈ r.references, t.has l := by
  rw [accept] at h
  split at h
  · cases h
  · exact Tables.requireAll_ok_iff.1 h

/-- A revision `r` that is accepted refers to what is there. -/
theorem Revision.references_of_accept {t : Tables} (ht : t.Closed) {r : Revision}
    (h : r.accept t = .ok ()) : ∀ l ∈ r.record.references, t.has l := by
  obtain ⟨old, hold⟩ := find?_of_accept h
  have hle := le_of_accept h old hold
  cases r with
  | node new =>
    obtain ⟨stored, hs, -⟩ := Option.map_eq_some_iff.1 hold
    simp only [accept, acceptNode, hs] at h
    split at h
    · cases h
    · exact Tables.requireAll_ok_iff.1 h
  | _ =>
    rw [hle.references_eq fun _ hn => by cases hn]
    exact ht _ old hold

/-- What the request `r` stores refers to what is there. -/
theorem Request.references_of_writes {tx : Transaction} (ht : tx.view.Closed) {r : Request}
    {s : Record} (h : r.writes tx = some s) : ∀ l ∈ s.references, tx.view.has l := by
  obtain ⟨hs, hacc, -⟩ := writes_eq_some.1 h
  cases r with
  | insert r => cases hs; exact Record.references_of_accept hacc
  | revise r => cases hs; exact Revision.references_of_accept ht hacc
  | _ => cases hs

/-- Requests keep the view closed. -/
theorem Transaction.Becomes.closed {P : Request → Prop} {tx tx' : Transaction}
    (h : tx.Becomes P tx') (htx : tx.view.Closed) : tx'.view.Closed := by
  apply h.view_induction (Q := Tables.Closed)
  · intro r t s _ hw ht
    exact ht.put (Request.references_of_writes ht hw)
  · exact htx

/-- A commit of `tx` keeps the committed tables closed if whatever is in the view is committed
already or copied. -/
theorem Committed.closed_apply {tx : Transaction} (hkeyed : tx.view.Keyed)
    (hview : tx.view.Closed) {c : Committed} (hc : c.tables.Closed)
    (hwrites : ∀ k ∈ tx.writes, tx.view.has k)
    (hrest : ∀ k, tx.view.has k → k ∉ tx.writes → c.tables.has k) :
    (c.apply tx).tables.Closed := by
  intro k r hr l hl
  rw [find?_apply hkeyed] at hr
  by_cases hk : k ∈ tx.writes
  · obtain ⟨s, hs⟩ := Option.isSome_iff_exists.1 (hwrites k hk)
    rw [if_pos hk, hs, Option.some_or] at hr
    cases hr
    have hl' := hview k r hs l hl
    by_cases hlw : l ∈ tx.writes
    · obtain ⟨s', hs'⟩ := Option.isSome_iff_exists.1 hl'
      rw [Tables.has, find?_apply hkeyed, if_pos hlw, hs']
      rfl
    · exact has_apply (hrest l hl' hlw) tx
  · rw [if_neg hk] at hr
    exact has_apply (hc k r hr l hl) tx

namespace World

variable {α β : Type} {w : World α}

/-- The committed tables of `w`, the snapshots and the views are closed. -/
structure Closed (w : World α) : Prop where
  committed : w.store.committed.tables.Closed
  start : ∀ name s, w.sessions name = some s → s.start.view.Closed

theorem Closed.begin (h : w.Closed) (name : Nat) (mode : TxMode) (isolation : Isolation)
    (note : α) : (w.begin name mode isolation note).Closed where
  committed := h.committed
  start i t ht := by
    rcases sessions_begin ht with rfl | ht
    · exact h.committed
    · exact h.start i t ht

theorem Closed.use (h : w.Closed) (name : Nat) (op : Op β) (remark : Except Error β → α → α) :
    (w.use name op remark).Closed where
  committed := by
    rw [committed_use]
    exact h.committed
  start i t ht := by
    rcases sessions_use ht with ⟨s, hs, rfl⟩ | ht
    · exact h.start name s hs
    · exact h.start i t ht

/-- What a commit does not copy was in the snapshot and is still committed. -/
theorem Closed.commit (h : w.Closed) (hw : w.Sound) (name : Nat) : (w.commit name).Closed where
  committed := by
    rcases commit_cases w name with ⟨-, hcommitted⟩ | ⟨s, hs, -, -, hcommitted⟩
    · rw [hcommitted]
      exact h.committed
    · have hsound := hw.sessions name s hs
      rw [hcommitted]
      apply Committed.closed_apply hsound.keyed_view
      · exact hsound.becomes.closed (h.start name s hs)
      · exact h.committed
      · intro k hk
        exact hsound.has_of_writes hk
      · intro k hk hkw
        rw [Tables.has, hsound.find?_view hkw] at hk
        exact hw.has_committed hs hk
  start i t ht := h.start i t (sessions_commit ht)

/-- In every world that can come about, the committed tables and all snapshots are closed. -/
theorem Reachable.closed (h : w.Reachable) : w.Closed := by
  induction h with
  | init mint => exact ⟨Tables.closed_empty, nofun⟩
  | begin name mode isolation note _ ih => exact ih.begin name mode isolation note
  | use name hop remark _ ih => exact ih.use name _ remark
  | commit name hw ih => exact ih.commit hw.sound name
  | rollback name _ ih =>
    exact ⟨ih.committed, fun i t ht => ih.start i t (sessions_rollback ht)⟩
  | @aside f hf w _ ih =>
    have hc := ih.committed
    rw [← hf w.store] at hc
    exact ⟨hc, ih.start⟩

/-- In every world that can come about, all views are closed. -/
theorem Reachable.closed_view (h : w.Reachable) {name : Nat} {s : Session α}
    (hs : w.sessions name = some s) : s.tx.view.Closed :=
  (h.sound.sessions name s hs).becomes.closed (h.closed.start name s hs)

end World

end Propagation
