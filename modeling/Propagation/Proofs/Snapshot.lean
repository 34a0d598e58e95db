import Propagation.Proofs.World

/-!
# What a session rests on

Between the tables with which a session began and those that are committed now lie the commits
since. They are all that can be different: what they did not write is still as it was, and what
they wrote is newer than the session. Between the tables with which it began and its view lie its
own writes.

## Main definitions

* `Transaction.RestsOn`: the records that the end of a transaction depends on.

## Main statements

* `Session.Sound.find?_view`, `Session.Sound.has_of_writes`: a view differs from the snapshot by
  what the session wrote.
* `Session.Sound.copy_eq_put`: a commit copies all of that.
* `Session.Sound.find?_committed`, `Session.Sound.index_committed`: the committed tables differ
  from the snapshot by what was written since.
* `Session.Sound.isStale_iff`: a session is stale if something that it rests on was written since.
* `World.Sound.conflicts_iff`: a conflict, read off the log.
* `World.Sound.find?_committed`, `World.Sound.index_committed`: what the absence of a conflict says
  about the committed tables.
-/

namespace Propagation

/-- The transaction `tx` rests on the key `k`: it read or wrote the record, or searched the table of
it. -/
def Transaction.RestsOn (tx : Transaction) (k : Key) : Prop :=
  k ∈ tx.reads ∨ k ∈ tx.writes ∨ k.entity ∈ tx.scans

/-- What is committed now was committed on top of what was committed then. -/
theorem Committed.ofLog_split (n : Nat) (log : List Transaction) :
    ofLog log = (ofLog (log.take n)).applyAll (log.drop n) := by
  rw [← ofLog_append, List.take_append_drop]

namespace Transaction.Becomes

variable {P : Request → Prop} {tx tx' : Transaction}

/-! ## What requests keep -/

theorem mode_eq (h : tx.Becomes P tx') : tx'.mode = tx.mode := by
  apply h.keeps (I := fun t => t.mode = tx.mode)
  · intro r t _ ht
    rw [r.mode_after, ht]
  · rfl

theorem isolation_eq (h : tx.Becomes P tx') : tx'.isolation = tx.isolation := by
  apply h.keeps (I := fun t => t.isolation = tx.isolation)
  · intro r t _ ht
    rw [r.isolation_after, ht]
  · rfl

theorem beginVersion_eq (h : tx.Becomes P tx') : tx'.beginVersion = tx.beginVersion := by
  apply h.keeps (I := fun t => t.beginVersion = tx.beginVersion)
  · intro r t _ ht
    rw [r.beginVersion_after, ht]
  · rfl

/-- A property `Q` of tables that no stored record breaks is kept by the view. -/
theorem view_induction {Q : Tables → Prop} (h : tx.Becomes P tx')
    (hQ : ∀ r t s, P r → r.writes t = some s → Q t.view → Q (t.view.put s)) (h0 : Q tx.view) :
    Q tx'.view := by
  apply h.keeps (I := fun t => Q t.view)
  · intro r t hr ht
    rw [r.view_after]
    cases hw : r.writes t with
    | none => exact ht
    | some s => exact hQ r t s hr hw ht
  · exact h0

theorem keyed (h : tx.Becomes P tx') (hk : tx.view.Keyed) : tx'.view.Keyed := by
  apply h.view_induction (Q := Tables.Keyed)
  · intro _ _ s _ _ ht
    exact ht.put s
  · exact hk

theorem mem_writes (h : tx.Becomes P tx') {k : Key} (hk : k ∈ tx.writes) : k ∈ tx'.writes := by
  apply h.keeps (I := fun t => k ∈ t.writes)
  · intro r t _ ht
    exact (r.mem_writes_after t).2 (.inl ht)
  · exact hk

theorem mem_reads (h : tx.Becomes P tx') {k : Key} (hk : k ∈ tx.reads) : k ∈ tx'.reads := by
  apply h.keeps (I := fun t => k ∈ t.reads)
  · intro r t _ ht
    exact (r.mem_reads_after t).2 (.inl ht)
  · exact hk

theorem mem_scans (h : tx.Becomes P tx') {e : Entity} (he : e ∈ tx.scans) : e ∈ tx'.scans := by
  apply h.keeps (I := fun t => e ∈ t.scans)
  · intro r t _ ht
    exact (r.mem_scans_after t).2 (.inl ht)
  · exact he

/-- What `tx'` has not in its account of writes is in its view as it was in that of `tx`. -/
theorem find?_view (h : tx.Becomes P tx') {k : Key} (hk : k ∉ tx'.writes) :
    tx'.view.find? k = tx.view.find? k := by
  apply h.keeps (I := fun t => k ∉ t.writes → t.view.find? k = tx.view.find? k) _ _ hk
  · intro r t _ ht hk
    rw [r.mem_writes_after, not_or] at hk
    rw [r.view_after]
    cases hw : r.writes t with
    | none => exact ht hk.1
    | some s =>
      have hne : s.key ≠ k := by
        intro hs
        exact hk.2 (by rw [hw, Option.map_some, hs])
      rw [Tables.find?_put, if_neg hne]
      exact ht hk.1
  · intro _
    rfl

/-- What `tx'` has in its account of writes is in its view. -/
theorem has_of_writes (h : tx.Becomes P tx') (h0 : ∀ k ∈ tx.writes, tx.view.has k) {k : Key}
    (hk : k ∈ tx'.writes) : tx'.view.has k := by
  apply h.keeps (I := fun t => ∀ k ∈ t.writes, t.view.has k) _ h0 k hk
  intro r t _ ht k hk
  rw [r.mem_writes_after] at hk
  rw [r.view_after]
  cases hw : r.writes t with
  | none =>
    rw [hw] at hk
    exact ht k (hk.resolve_right (by simp))
  | some s =>
    rw [hw] at hk
    rcases hk with hk | hk
    · exact Tables.has_put_of_has (ht k hk) s
    · simp only [Option.map_some, Option.some.injEq] at hk
      simp [Tables.has_put, hk]

/-- A transaction that may not write writes nothing. -/
theorem writes_of_readOnly (h : tx.Becomes P tx') (h0 : tx.writes = [])
    (hmode : tx'.mode = .readOnly) : tx'.writes = [] := by
  apply h.keeps (I := fun t => t.mode = .readOnly → t.writes = []) _ (fun _ => h0) hmode
  intro r t _ ht hmode
  rw [r.mode_after] at hmode
  refine List.eq_nil_iff_forall_not_mem.2 fun k hk => ?_
  rw [r.mem_writes_after, ht hmode] at hk
  cases hw : r.writes t with
  | none => simp [hw] at hk
  | some s =>
    have hwrite : t.mode = .readWrite := (Request.writes_eq_some.1 hw).2.2
    rw [hmode] at hwrite
    cases hwrite

end Transaction.Becomes

namespace Session.Sound

variable {α : Type} {log : List Transaction} {s : Session α} (h : s.Sound log)
include h

/-! ## From the snapshot to the view -/

theorem writes_start : s.start.writes = [] := by rw [h.start_eq]; rfl

theorem keyed_start : s.start.view.Keyed := by rw [h.start_eq]; exact Committed.keyed_ofLog _

theorem keyed_view : s.tx.view.Keyed := h.becomes.keyed h.keyed_start

/-- What `s` did not write is in its view as it was. -/
theorem find?_view {k : Key} (hk : k ∉ s.tx.writes) : s.tx.view.find? k = s.start.view.find? k :=
  h.becomes.find?_view hk

/-- What `s` wrote is in its view. -/
theorem has_of_writes {k : Key} (hk : k ∈ s.tx.writes) : s.tx.view.has k :=
  h.becomes.has_of_writes (by rw [h.writes_start]; simp) hk

theorem writes_of_readOnly (hmode : s.tx.mode = .readOnly) : s.tx.writes = [] :=
  h.becomes.writes_of_readOnly h.writes_start hmode

/-- A commit passes over nothing that `s` wrote. -/
theorem copy_eq_put {k : Key} (hk : k ∈ s.tx.writes) :
    ∃ r, r.key = k ∧ s.tx.view.find? k = some r ∧ ∀ t, Tables.copy s.tx.view k t = t.put r := by
  obtain ⟨r, hr⟩ := Option.isSome_iff_exists.1 (h.has_of_writes hk)
  exact ⟨r, h.keyed_view k r hr, hr, fun t => by rw [Tables.copy, hr]⟩

/-! ## From the snapshot to what is committed -/

theorem view_start : s.start.view = (Committed.ofLog (log.take s.began)).tables := by
  rw [h.start_eq]; rfl

theorem beginVersion_eq : s.tx.beginVersion = (Committed.ofLog (log.take s.began)).version := by
  rw [h.becomes.beginVersion_eq, h.start_eq]; rfl

/-- What no commit in `log` has written since `s` began is as in the snapshot of `s`. -/
theorem find?_committed (hlog : ∀ tx ∈ log, tx.view.Keyed) {k : Key}
    (hk : ∀ tx ∈ log.drop s.began, k ∉ tx.writes) :
    (Committed.ofLog log).tables.find? k = s.start.view.find? k := by
  rw [Committed.ofLog_split s.began, h.view_start]
  exact Committed.find?_applyAll (fun tx htx => hlog tx (List.mem_of_mem_drop htx)) hk _

/-- The indexes are as in the snapshot of `s` if no commit since has written a vector. -/
theorem index_committed (hk : ∀ tx ∈ log.drop s.began, ∀ k ∈ tx.writes, k.entity ≠ .vector) :
    (Committed.ofLog log).tables.outgoing = s.start.view.outgoing ∧
      (Committed.ofLog log).tables.incoming = s.start.view.incoming := by
  rw [Committed.ofLog_split s.began, h.view_start]
  exact Committed.index_applyAll hk _

/-- What is in the snapshot of `s` is still there. -/
theorem has_committed {k : Key} (hk : s.start.view.has k) :
    (Committed.ofLog log).tables.has k := by
  rw [h.view_start] at hk
  rw [Committed.ofLog_split s.began]
  exact Committed.has_applyAll hk _

/-! ## Staleness -/

theorem recordNewer_iff {k : Key} : (Committed.ofLog log).recordNewer s.tx.beginVersion k ↔
    ∃ tx ∈ log.drop s.began, k ∈ tx.writes := by
  rw [h.beginVersion_eq, Committed.ofLog_split s.began log]
  exact Committed.recordNewer_applyAll (Committed.dated_ofLog _) _ _

theorem tableNewer_iff {e : Entity} : (Committed.ofLog log).tableNewer s.tx.beginVersion e ↔
    ∃ tx ∈ log.drop s.began, ∃ k ∈ tx.writes, k.entity = e := by
  rw [h.beginVersion_eq, Committed.ofLog_split s.began log]
  exact Committed.tableNewer_applyAll (Committed.dated_ofLog _) _ _

/-- The session `s` is stale if something that it rests on was written since. -/
theorem isStale_iff : (Committed.ofLog log).isStale s.tx ↔
    ∃ tx ∈ log.drop s.began, ∃ k ∈ tx.writes, s.tx.RestsOn k := by
  rw [Committed.isStale_iff]
  constructor
  · rintro (⟨k, hk, hnew⟩ | ⟨e, he, hnew⟩)
    · obtain ⟨tx, htx, hktx⟩ := h.recordNewer_iff.1 hnew
      exact ⟨tx, htx, k, hktx, hk.imp_right .inl⟩
    · obtain ⟨tx, htx, k, hktx, rfl⟩ := h.tableNewer_iff.1 hnew
      exact ⟨tx, htx, k, hktx, .inr (.inr he)⟩
  · rintro ⟨tx, htx, k, hktx, hk | hk | hk⟩
    · exact .inl ⟨k, .inl hk, h.recordNewer_iff.2 ⟨tx, htx, hktx⟩⟩
    · exact .inl ⟨k, .inr hk, h.recordNewer_iff.2 ⟨tx, htx, hktx⟩⟩
    · exact .inr ⟨k.entity, hk, h.tableNewer_iff.2 ⟨tx, htx, k, hktx, rfl⟩⟩

end Session.Sound

namespace World.Sound

variable {α : Type} {w : World α} (h : w.Sound)
include h

theorem keyed_log : ∀ tx ∈ w.log.map (·.tx), tx.view.Keyed := by
  intro tx htx
  obtain ⟨s, hs, rfl⟩ := List.mem_map.1 htx
  exact (h.log s hs).keyed_view

theorem keyed_committed : w.store.committed.tables.Keyed := by
  rw [h.committed_eq]
  exact Committed.keyed_ofLog _

/-- A conflict means that somebody has written what `s` rests on. -/
theorem conflicts_iff {name : Nat} {s : Session α} (hs : w.sessions name = some s) :
    w.store.conflicts s.tx ↔ s.tx.isolation = .serializable ∧
      ∃ u ∈ w.log.drop s.began, ∃ k ∈ u.tx.writes, s.tx.RestsOn k := by
  rw [Store.conflicts, Bool.and_eq_true, decide_eq_true_eq, h.committed_eq,
    (h.sessions name s hs).isStale_iff, ← List.map_drop]
  simp only [List.mem_map, exists_exists_and_eq_and]

/-- What was there when `s` began is still committed. -/
theorem has_committed {name : Nat} {s : Session α} (hs : w.sessions name = some s) {k : Key}
    (hk : s.start.view.has k) : w.store.committed.tables.has k := by
  rw [h.committed_eq]
  exact (h.sessions name s hs).has_committed hk

/-! ## What a commit leaves -/

section Apply

variable {name : Nat} {s : Session α} (hs : w.sessions name = some s)
include hs

/-- What `s` wrote is committed as `s` sees it. -/
theorem find?_apply_of_mem {k : Key} (hk : k ∈ s.tx.writes) :
    (w.store.committed.apply s.tx).tables.find? k = s.tx.view.find? k := by
  have hsound := h.sessions name s hs
  obtain ⟨r, hr⟩ := Option.isSome_iff_exists.1 (hsound.has_of_writes hk)
  rw [Committed.find?_apply hsound.keyed_view, if_pos hk, hr, Option.some_or]

theorem find?_apply_of_notMem {k : Key} (hk : k ∉ s.tx.writes) :
    (w.store.committed.apply s.tx).tables.find? k = w.store.committed.tables.find? k := by
  rw [Committed.find?_apply (h.sessions name s hs).keyed_view, if_neg hk]

/-- What is committed afterwards was committed before, or was in the view. -/
theorem has_apply_cases {k : Key} (hk : (w.store.committed.apply s.tx).tables.has k) :
    w.store.committed.tables.has k ∨ s.tx.view.has k := by
  by_cases hwrites : k ∈ s.tx.writes
  · exact .inr ((h.sessions name s hs).has_of_writes hwrites)
  · rw [Tables.has, h.find?_apply_of_notMem hs hwrites] at hk
    exact .inl hk

/-- What is in the view of `s` is committed afterwards: it was written, or was there from the start.
-/
theorem has_apply_of_view {k : Key} (hk : s.tx.view.has k) :
    (w.store.committed.apply s.tx).tables.has k := by
  by_cases hwrites : k ∈ s.tx.writes
  · rw [Tables.has, h.find?_apply_of_mem hs hwrites]
    exact hk
  · rw [Tables.has, (h.sessions name s hs).find?_view hwrites] at hk
    exact Committed.has_apply (h.has_committed hs hk) s.tx

end Apply

/-! ## Without a conflict

Of a serializable session that meets no conflict. -/

section Unhindered

variable {name : Nat} {s : Session α} (hs : w.sessions name = some s)
  (hser : s.tx.isolation = .serializable) (hc : w.store.conflicts s.tx = false)
include hs hser hc

/-- Nobody has written what `s` rests on. -/
theorem not_restsOn {tx : Transaction} (htx : tx ∈ (w.log.map (·.tx)).drop s.began) {k : Key}
    (hk : k ∈ tx.writes) : ¬ s.tx.RestsOn k := by
  rw [← List.map_drop] at htx
  obtain ⟨u, hu, rfl⟩ := List.mem_map.1 htx
  intro hrests
  have hconflict := (h.conflicts_iff hs).2 ⟨hser, u, hu, k, hk, hrests⟩
  rw [hc] at hconflict
  cases hconflict

/-- What `s` rests on is committed as it was when `s` began. -/
theorem find?_committed {k : Key} (hk : s.tx.RestsOn k) :
    w.store.committed.tables.find? k = s.start.view.find? k := by
  rw [h.committed_eq]
  apply (h.sessions name s hs).find?_committed h.keyed_log
  intro tx htx hktx
  exact h.not_restsOn hs hser hc htx hktx hk

/-- The indexes are as they were when `s` began, if `s` searched the vectors. -/
theorem index_committed (hv : .vector ∈ s.tx.scans) :
    w.store.committed.tables.outgoing = s.start.view.outgoing ∧
      w.store.committed.tables.incoming = s.start.view.incoming := by
  rw [h.committed_eq]
  apply (h.sessions name s hs).index_committed
  intro tx htx k hktx hk
  exact h.not_restsOn hs hser hc htx hktx (.inr (.inr (hk ▸ hv)))

end Unhindered

end World.Sound

end Propagation
