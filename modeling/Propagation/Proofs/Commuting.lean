import Propagation.Proofs.Alike
import Propagation.Proofs.Descent

/-!
# The order of commits

A commit copies the records of a set of keys, and it makes no difference in which order it does so.
Nor does it matter which of two transactions is committed first if they wrote different records and
neither of them minds what else is committed: each copies what it wrote and nothing of its own copy
of the rest. The lists of the indexes, both of which the two transactions may have extended, come
out with the vectors of both.

## Main definitions

* `Trace.stored`, `Trace.last?`: what was stored, and what was last stored under a key.

## Main statements

* `Request.find?_afterAll`: a view shows what was last stored under a key.
* `Committed.same_apply_comm`: commits of different records commute.
* `World.commit_order`: neither order can be told from what is committed.
-/

namespace Propagation

open Std (ExtTreeMap)

/-! ## What was last stored -/

namespace Trace

/-- The records that were stored, one after the other. -/
def stored (t : Trace) : List Record :=
  t.filterMap fun (r, a) => if a.isOk then r.stored? else none

/-- The record that was last stored under the key `k`. -/
def last? (t : Trace) (k : Key) : Option Record := t.stored.reverse.find? (·.key = k)

theorem wrote_eq (t : Trace) : t.wrote = t.stored.map Record.key := by
  rw [wrote, stored, List.map_filterMap]
  refine List.filterMap_congr ?_
  rintro ⟨r, a⟩ -
  cases h : a.isOk <;> simp [h]

/-- Something was last stored under every key that `t` wrote. -/
theorem exists_last {t : Trace} {k : Key} (hk : k ∈ t.wrote) : ∃ r, t.last? k = some r := by
  rw [wrote_eq] at hk
  obtain ⟨r, hr, rfl⟩ := List.mem_map.1 hk
  rw [← Option.isSome_iff_exists, last?, List.find?_isSome]
  exact ⟨r, List.mem_reverse.2 hr, by simp⟩

/-- What is stored as a new record is stored. -/
theorem stored_of_inserted {t : Trace} {r : Record} (hr : r ∈ t.inserted) : r ∈ t.stored := by
  obtain ⟨⟨q, a⟩, hmem, hq⟩ := List.mem_filterMap.1 hr
  refine List.mem_filterMap.2 ⟨(q, a), hmem, ?_⟩
  cases q <;> cases a <;> simp_all [Except.isOk, Except.toBool, Request.stored?]

end Trace

namespace Request

theorem stored_singleton (r : Request) (tx : Transaction) :
    Trace.stored [(r, r.answer tx)] = (r.writes tx).toList := by
  cases h : r.check tx with
  | error e => simp [Trace.stored, answer_eq, h, writes_of_error h, Except.map, Except.isOk,
      Except.toBool]
  | ok u =>
    cases hr : r.stored? <;> simp [Trace.stored, answer_eq, h, writes_of_ok h, hr, Except.map,
      Except.isOk, Except.toBool]

/-- After the requests `rs`, the view shows what was last stored under `k`, or what was there. -/
theorem find?_afterAll (rs : List Request) (tx : Transaction) (k : Key) :
    (afterAll rs tx).view.find? k = ((trace rs tx).last? k).or (tx.view.find? k) := by
  induction rs generalizing tx with
  | nil => rfl
  | cons r rs ih =>
    have hstored : (trace (r :: rs) tx).stored =
        (r.writes tx).toList ++ (trace rs (r.after tx)).stored := by
      rw [← stored_singleton, trace, ← List.singleton_append, Trace.stored, List.filterMap_append]
      rfl
    rw [afterAll_cons, ih, view_after, Trace.last?, Trace.last?, hstored, List.reverse_append,
      List.find?_append]
    cases hw : r.writes tx with
    | none => simp
    | some s =>
      rw [Tables.find?_put]
      by_cases hs : s.key = k <;> simp [hs]

end Request

/-- A session shows what it last stored under a key `k` that it wrote. -/
theorem Session.Traced.find?_view {s : Session Trace} {log : List Transaction} (h : s.Traced)
    (hs : s.Sound log) {k : Key} (hk : k ∈ s.tx.writes) :
    ∃ r, s.note.last? k = some r ∧ s.tx.view.find? k = some r := by
  obtain ⟨r, hr⟩ := Trace.exists_last ((h.mem_writes hs).1 hk)
  refine ⟨r, hr, ?_⟩
  rw [h.tx_eq, Request.find?_afterAll, ← h.note_eq, hr, Option.some_or]

/-- A record `r` that a session stored as a new one is among what it wrote. -/
theorem Session.Traced.mem_writes_of_inserted {s : Session Trace} {log : List Transaction}
    (h : s.Traced) (hs : s.Sound log) {r : Record} (hr : r ∈ s.note.inserted) :
    r.key ∈ s.tx.writes := by
  rw [h.mem_writes hs, Trace.wrote_eq]
  exact List.mem_map.2 ⟨r, Trace.stored_of_inserted hr, rfl⟩

/-! ## Two commits -/

namespace Committed

section Two

variable {tx tx' : Transaction} (htx : tx.view.Keyed) (htx' : tx'.view.Keyed)
  (hdisjoint : tx.writes.Disjoint tx'.writes) (c : Committed)
include htx htx' hdisjoint

/-- What the commit of `tx` copied stays when `tx'` is committed, and what is new to the committed
tables is indexed. -/
theorem indexedOver_apply_apply : c.tables.IndexedOver ((c.apply tx).apply tx').tables := by
  have hfirst := indexedOver_apply htx c
  have hsecond := indexedOver_apply htx' (c.apply tx)
  have hstays : ∀ (i : VectorId) v, c.tables.vectors[i]? = none →
      (c.apply tx).tables.vectors[i]? = some v →
        ((c.apply tx).apply tx').tables.vectors[i]? = some v := by
    intro i v hnone hv
    rw [← Tables.find?_vector] at hv ⊢
    have hwrote : .vector i ∈ tx.writes := by
      by_contra hno
      rw [find?_apply htx, if_neg hno, Tables.find?_vector, hnone] at hv
      cases hv
    rw [find?_apply htx', if_neg (hdisjoint hwrote), hv]
  exact ⟨fun i hi => hfirst.has i (hsecond.has i hi),
    hfirst.outgoing.trans hsecond.outgoing hfirst.has hstays,
    hfirst.incoming.trans hsecond.incoming hfirst.has hstays⟩

/-- The commits of `tx` and `tx'`, which wrote different records, commute. -/
theorem same_apply_comm :
    ((c.apply tx).apply tx').tables.Same ((c.apply tx').apply tx).tables := by
  have hother := indexedOver_apply_apply htx' htx (List.disjoint_comm.1 hdisjoint) c
  refine (indexedOver_apply_apply htx htx' hdisjoint c).same hother (.refl _) fun k => ?_
  rw [find?_apply htx', find?_apply htx, find?_apply htx, find?_apply htx']
  by_cases hk : k ∈ tx.writes
  · have hk' : k ∉ tx'.writes := hdisjoint hk
    simp [hk, hk']
  · simp [hk]

end Two

end Committed

namespace World

variable {α : Type} {w : World α}

/-- The commit of a read-committed transaction copies what it wrote. -/
theorem commit_readCommitted {name : Nat} {s : Session α} (hs : w.sessions name = some s)
    (hrc : s.tx.isolation = .readCommitted) :
    (w.commit name).store.committed = w.store.committed.apply s.tx ∧
      (w.commit name).log = w.log ++ [s] ∧
      ∀ i, i ≠ name → (w.commit name).sessions i = w.sessions i := by
  simp only [commit, hs, Store.commit_of_not_conflicts (Store.conflicts_readCommitted hrc w.store)]
  exact ⟨rfl, rfl, fun i hi => Function.update_of_ne hi _ _⟩

/-- To list what a session wrote as `ws`, in another order, makes no difference to the world. -/
theorem alike_relist {name : Nat} {s : Session α} (hs : w.sessions name = some s) {ws : List Key}
    (hws : s.tx.writes.Perm ws) :
    w.Alike (w.put name (some { s with tx := { s.tx with writes := ws } })) where
  store := ⟨rfl, .refl _, rfl, rfl, rfl⟩
  sessions i := by
    have hrefl (t : Session α) : t.Alike t := ⟨.refl _, .refl _, rfl, rfl⟩
    change Option.Rel _ (w.sessions i) (Function.update w.sessions name _ i)
    rw [Function.update_apply]
    split
    · rename_i hi
      rw [hi, hs]
      exact .some ⟨.refl _, ⟨rfl, .refl _, hws⟩, rfl, rfl⟩
    · cases w.sessions i with
      | none => exact .none
      | some t => exact .some (hrefl t)
  log := List.forall₂_same.2 fun t _ => ⟨.refl _, .refl _, rfl, rfl⟩

theorem run_append (mint : Mint) (events more : List Event) :
    run mint (events ++ more) = more.foldl step (run mint events) := List.foldl_append

/-- Where no two vectors were given one identifier, a vector `v` that was born is found from both of
its ends. -/
theorem mem_selectVectors_of_born {mint : Mint} {events : List Event}
    (hapart : Record.VectorsApart (run mint events).born) {v : Vector}
    (hborn : .vector v ∈ (run mint events).born) {r : Record}
    (hr : (run mint events).store.committed.tables.find? (.vector v.id) = some r) :
    let t := (run mint events).store.committed.tables
    ∃ v' : Vector, v'.id = v.id ∧ v' ∈ t.selectVectors { origin := some v.origin } ∧
      v' ∈ t.selectVectors { destination := some v.destination } := by
  intro t
  have hlinked : t.Linked := (linked_run_of_vectors mint events hapart).committed
  have hkeyed : t.Keyed := (sound_run mint events).keyed_committed
  obtain ⟨v', hv', -⟩ := Option.map_eq_some_iff.1 hr
  obtain ⟨v₀, hborn₀, hid, hle⟩ := (descends_run mint events).committed.vector hv'
  obtain rfl := hapart.eq hborn₀ hborn hid
  have hfound {q : VectorQuery} (hq : q.matches t v') : v' ∈ t.selectVectors q := by
    rw [Tables.selectVectors, mem_sort, List.mem_filter, List.mem_filterMap]
    exact ⟨⟨_, hlinked.mem_vectorIds hv' hq, hv'⟩, hq⟩
  refine ⟨v', Key.vector.inj (hkeyed _ _ (Tables.find?_vector.2 hv')), hfound ?_, hfound ?_⟩
  · simp [VectorQuery.matches, hle.origin]
  · simp [VectorQuery.matches, hle.destination]

section Two

variable {mint : Mint} {events : List Event} {name name' : Nat} {s s' : Session Trace}
  (hs : (run mint events).sessions name = some s) (hs' : (run mint events).sessions name' = some s')
  (hne : name ≠ name') (hrc : s.tx.isolation = .readCommitted)
  (hrc' : s'.tx.isolation = .readCommitted)
include hs hs' hne hrc hrc'

/-- Two read-committed transactions are both committed, one after the other. -/
theorem run_commit_commit :
    (run mint (events ++ [.commit name, .commit name'])).store.committed =
        ((run mint events).store.committed.apply s.tx).apply s'.tx ∧
      (run mint (events ++ [.commit name, .commit name'])).born =
        (run mint events).born ++ (s.note.inserted ++ s'.note.inserted) := by
  obtain ⟨hcommitted, hlog, hsessions⟩ := commit_readCommitted hs hrc
  rw [← hsessions name' hne.symm] at hs'
  obtain ⟨hcommitted', hlog', -⟩ := commit_readCommitted hs' hrc'
  rw [run_append]
  refine ⟨hcommitted'.trans (by rw [hcommitted]), (born_commit hlog').trans ?_⟩
  rw [← List.append_assoc]
  exact congrArg (· ++ s'.note.inserted) (born_commit hlog)

omit hne hrc hrc' in
/-- Each record that `s` or `s'` wrote is committed as its transaction last stored it. -/
theorem last_of_commit_commit (hdisjoint : s.tx.writes.Disjoint s'.tx.writes) :
    let t := (((run mint events).store.committed.apply s.tx).apply s'.tx).tables
    (∀ k ∈ s.tx.writes, ∃ r, s.note.last? k = some r ∧ t.find? k = some r) ∧
      ∀ k ∈ s'.tx.writes, ∃ r, s'.note.last? k = some r ∧ t.find? k = some r := by
  have hw := sound_run mint events
  have ht := traced_run mint events
  have hsound := hw.sessions name s hs
  have hsound' := hw.sessions name' s' hs'
  refine ⟨fun k hk => ?_, fun k hk => ?_⟩
  · obtain ⟨r, hlast, hview⟩ := (ht.sessions name s hs).find?_view hsound hk
    refine ⟨r, hlast, ?_⟩
    rw [Committed.find?_apply hsound'.keyed_view, if_neg (hdisjoint hk),
      hw.find?_apply_of_mem hs hk, hview]
  · obtain ⟨r, hlast, hview⟩ := (ht.sessions name' s' hs').find?_view hsound' hk
    refine ⟨r, hlast, ?_⟩
    rw [Committed.find?_apply hsound'.keyed_view, if_pos hk, hview, Option.some_or]

omit hne hrc hrc' in
/-- The new vectors of `s` and `s'` are stored in the end. -/
theorem find?_of_commit_commit (hdisjoint : s.tx.writes.Disjoint s'.tx.writes) {v : Vector}
    (hv : .vector v ∈ s.note.inserted ++ s'.note.inserted) :
    ∃ r, (((run mint events).store.committed.apply s.tx).apply s'.tx).tables.find?
      (.vector v.id) = some r := by
  have hw := sound_run mint events
  have ht := traced_run mint events
  obtain ⟨hlast, hlast'⟩ := last_of_commit_commit hs hs' hdisjoint
  rcases List.mem_append.1 hv with hv | hv
  · have hwritten := (ht.sessions name s hs).mem_writes_of_inserted (hw.sessions name s hs) hv
    obtain ⟨r, -, hr⟩ := hlast _ hwritten
    exact ⟨r, hr⟩
  · have hwritten := (ht.sessions name' s' hs').mem_writes_of_inserted (hw.sessions name' s' hs') hv
    obtain ⟨r, -, hr⟩ := hlast' _ hwritten
    exact ⟨r, hr⟩

end Two

/-- Commits do not depend on an order. What a transaction wrote may be copied in any order: the
commit fares alike and leaves the same tables, and whatever happens afterwards is answered alike.
Two transactions that wrote different records and are content with what is committed may be
committed in either order: this leaves the same tables, which answer every transaction alike and
hold each record as its transaction last stored it. If no two of the vectors that were committed
have one identifier, the new vectors of both are found from both of their ends. -/
theorem commit_order (mint : Mint) (events : List Event) :
    (∀ name s ws, (run mint events).sessions name = some s → s.tx.writes.Perm ws →
      let other := { s.tx with writes := ws }
      ((run mint events).store.commit other).1 = ((run mint events).store.commit s.tx).1 ∧
      ((run mint events).store.commit s.tx).2.committed.tables.Same
        ((run mint events).store.commit other).2.committed.tables ∧
      ∀ more i, (((.commit name :: more).foldl step
          ((run mint events).put name (some { s with tx := other }))).sessions i).map (·.note) =
        ((run mint (events ++ .commit name :: more)).sessions i).map (·.note)) ∧
    ∀ name name' s s', name ≠ name' →
      (run mint events).sessions name = some s → (run mint events).sessions name' = some s' →
      s.tx.isolation = .readCommitted → s'.tx.isolation = .readCommitted →
      s.tx.writes.Disjoint s'.tx.writes →
      let w := run mint (events ++ [.commit name, .commit name'])
      let w' := run mint (events ++ [.commit name', .commit name])
      w.store.committed.tables.Same w'.store.committed.tables ∧
      (∀ (tx : Transaction) requests,
        Request.trace requests { tx with view := w.store.committed.tables } =
          Request.trace requests { tx with view := w'.store.committed.tables }) ∧
      (∀ k ∈ s.tx.writes, ∃ r, s.note.last? k = some r ∧
        w.store.committed.tables.find? k = some r) ∧
      (∀ k ∈ s'.tx.writes, ∃ r, s'.note.last? k = some r ∧
        w.store.committed.tables.find? k = some r) ∧
      (Record.VectorsApart w.born → ∀ v, .vector v ∈ s.note.inserted ++ s'.note.inserted →
        ∃ v' : Vector, v'.id = v.id ∧
          v' ∈ w.store.committed.tables.selectVectors { origin := some v.origin } ∧
          v' ∈ w.store.committed.tables.selectVectors { destination := some v.destination }) := by
  have hw := sound_run mint events
  refine ⟨fun name s ws hs hws => ?_, fun name name' s s' hne hs hs' hrc hrc' hdisjoint => ?_⟩
  · obtain ⟨hanswer, hstore⟩ := (Store.Alike.refl (run mint events).store).commit
      (hw.sessions name s hs).keyed_view (.relist hws)
    refine ⟨hanswer, hstore.committed.tables, fun more i => ?_⟩
    have hlater := (alike_relist hs hws).foldl (reachable_run mint events) (.commit name :: more)
    rw [run_append]
    exact (hlater.notes_eq i).symm
  · obtain ⟨hcommitted, hborn⟩ := run_commit_commit hs hs' hne hrc hrc'
    obtain ⟨hcommitted', -⟩ := run_commit_commit hs' hs hne.symm hrc' hrc
    have hsound := hw.sessions name s hs
    have hsound' := hw.sessions name' s' hs'
    obtain ⟨hlast, hlast'⟩ := last_of_commit_commit hs hs' hdisjoint
    have hsame := Committed.same_apply_comm hsound.keyed_view hsound'.keyed_view hdisjoint
      (run mint events).store.committed
    rw [← hcommitted] at hlast hlast' hsame
    rw [← hcommitted'] at hsame
    refine ⟨hsame, fun tx requests => ?_, hlast, hlast', fun hapart v hv => ?_⟩
    · have halike : Transaction.Alike
          { tx with
            view := (run mint (events ++ [.commit name, .commit name'])).store.committed.tables }
          { tx with
            view := (run mint (events ++ [.commit name', .commit name])).store.committed.tables } :=
        ⟨rfl, hsame, .refl _⟩
      exact (halike.trace_eq (sound_run mint _).keyed_committed requests).symm
    · obtain ⟨r, hr⟩ := find?_of_commit_commit hs hs' hdisjoint hv
      rw [← hcommitted] at hr
      exact mem_selectVectors_of_born hapart (hborn ▸ List.mem_append_right _ hv) hr

/-- Two transactions that began at the same time add vectors to the same node. -/
def convergence : List Event :=
  [.begin 0 .readWrite .readCommitted, .ask 0 (.insert (.node (.numbered 0))),
    .ask 0 (.insert (.node (.numbered 1))), .commit 0,
    .begin 0 .readWrite .readCommitted, .begin 1 .readWrite .readCommitted,
    .ask 0 (.insert (.vector (.numbered 2 0 1))), .ask 0 (.insert (.vector (.numbered 3 1 0))),
    .ask 1 (.insert (.vector (.numbered 4 0 1)))]

/-- The first transaction may copy its vectors in either order, and be committed before the second
one or after it. A search from the node that they share finds a vector of each. -/
theorem commit_order_convergence : ∃ s s', (run .still convergence).sessions 0 = some s ∧
    (run .still convergence).sessions 1 = some s' ∧
    s.tx.writes = [.vector ⟨3⟩, .vector ⟨2⟩] ∧
    ((run .still convergence).store.commit s.tx).2.committed.tables.Same
      ((run .still convergence).store.commit
        { s.tx with writes := [.vector ⟨2⟩, .vector ⟨3⟩] }).2.committed.tables ∧
    let t := (run .still (convergence ++ [.commit 0, .commit 1])).store.committed.tables
    t.Same (run .still (convergence ++ [.commit 1, .commit 0])).store.committed.tables ∧
      (∃ v : Vector, v.id = ⟨2⟩ ∧ v ∈ t.selectVectors { origin := some ⟨0⟩ }) ∧
      ∃ v : Vector, v.id = ⟨4⟩ ∧ v ∈ t.selectVectors { origin := some ⟨0⟩ } := by
  have hfacts : ∀ s ∈ (run .still convergence).sessions 0,
      ∀ s' ∈ (run .still convergence).sessions 1,
        s.tx.isolation = .readCommitted ∧ s'.tx.isolation = .readCommitted ∧
        s.tx.writes = [.vector ⟨3⟩, .vector ⟨2⟩] ∧ s'.tx.writes = [.vector ⟨4⟩] ∧
        s.note.inserted = [.vector (.numbered 2 0 1), .vector (.numbered 3 1 0)] ∧
        s'.note.inserted = [.vector (.numbered 4 0 1)] := by
    decide +kernel
  obtain ⟨s, hs⟩ : ∃ s, (run .still convergence).sessions 0 = some s := ⟨_, rfl⟩
  obtain ⟨s', hs'⟩ : ∃ s', (run .still convergence).sessions 1 = some s' := ⟨_, rfl⟩
  obtain ⟨hrc, hrc', hwrites, hwrites', hinserted, hinserted'⟩ := hfacts s hs s' hs'
  obtain ⟨hunordered, hcommute⟩ := commit_order .still convergence
  have hperm : s.tx.writes.Perm [.vector ⟨2⟩, .vector ⟨3⟩] := by rw [hwrites]; exact .swap _ _ _
  have hdisjoint : s.tx.writes.Disjoint s'.tx.writes := by
    rw [hwrites, hwrites']
    simp
  obtain ⟨hsame, -, -, -, hfound⟩ := hcommute 0 1 s s' (by decide) hs hs' hrc hrc' hdisjoint
  rw [hinserted, hinserted'] at hfound
  have hapart : Record.VectorsApart (run .still (convergence ++ [.commit 0, .commit 1])).born := by
    decide +kernel
  obtain ⟨v, hv, horigin, -⟩ := hfound hapart (.numbered 2 0 1) (by simp)
  obtain ⟨v', hv', horigin', -⟩ := hfound hapart (.numbered 4 0 1) (by simp)
  exact ⟨s, s', hs, hs', hwrites, (hunordered 0 s _ hs hperm).2.1, hsame, ⟨v, hv, horigin⟩, v', hv',
    horigin'⟩

end World

end Propagation
