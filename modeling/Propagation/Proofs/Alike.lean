import Propagation.Proofs.Replay

/-!
# What the order of lists decides

The keys that a transaction wrote and the vectors that leave or enter a node are kept as lists, but
are meant as sets. Nothing that can be asked tells two stores apart that differ in the order of such
lists only: every query is answered alike, whatever is begun, stored and committed before it.

## Main definitions

* `Transaction.Alike`, `World.Alike`: transactions and worlds that differ in the order of their
  lists only.

## Main statements

* `Tables.Same.selectVectors_eq`: a search through lists in another order finds the same.
* `Transaction.Alike.answer_eq`, `Transaction.Alike.after`: requests do not tell transactions apart.
* `Committed.Alike.apply`: nor does what a commit leaves.
* `World.Alike.step`, `World.Alike.foldl`: nor does anything else that can happen.
-/

namespace Propagation

open Std (ExtTreeMap)

/-! ## Tables -/

namespace Tables.Same

variable {t u : Tables} (h : t.Same u)
include h

theorem find?_eq : t.find? = u.find? := by
  funext k
  cases k <;> simp only [find?, h.networks, h.nodes, h.vectors, h.infos, h.transmissions,
    h.transformations]

theorem has_eq : t.has = u.has := by
  funext k
  rw [has, has, h.find?_eq]

theorem requireAll_eq : t.requireAll = u.requireAll := by
  funext keys
  rw [requireAll, requireAll, firstMissing?, firstMissing?, h.has_eq]

/-- The same record `r` stored in both tables leaves them the same. -/
theorem put (r : Record) : (t.put r).Same (u.put r) := by
  obtain ⟨hnetworks, hnodes, hvectors, hinfos, htransmissions, htransformations, hout, hin⟩ := h
  cases r with
  | vector v =>
    have henlist {i j : ExtTreeMap NodeId (List VectorId)}
        (hij : ∀ n, (i.getD n []).Perm (j.getD n [])) (m n : NodeId) :
        ((enlist v.id m i).getD n []).Perm ((enlist v.id m j).getD n []) := by
      rw [enlist, enlist, ExtTreeMap.getD_insert, ExtTreeMap.getD_insert]
      split
      · exact (hij m).append_right _
      · exact hij n
    rw [Tables.put, Tables.put, putVector, putVector, link, link, ← hvectors]
    split
    · exact ⟨hnetworks, hnodes, congrArg (·.insert v.id v) hvectors, hinfos, htransmissions,
        htransformations, hout, hin⟩
    · exact ⟨hnetworks, hnodes, rfl, hinfos, htransmissions, htransformations, henlist hout _,
        henlist hin _⟩
  | _ =>
    simp only [Tables.put, hnetworks, hnodes, hvectors, hinfos, htransmissions, htransformations]
    exact ⟨rfl, rfl, rfl, rfl, rfl, rfl, hout, hin⟩

/-- A search by `q` goes through a list of vectors, but its answer is sorted. -/
theorem selectVectors_eq (ht : t.Keyed) (q : VectorQuery) :
    t.selectVectors q = u.selectVectors q := by
  have hid : ∀ (i : VectorId) v, u.vectors[i]? = some v → v.id = i := fun i v hv =>
    Key.vector.inj (ht (.vector i) (.vector v) (by rw [h.find?_eq]; exact find?_vector.2 hv))
  have hids : (t.vectorIds q).Perm (u.vectorIds q) := by
    rw [vectorIds, vectorIds, h.vectors]
    split
    · exact h.outgoing _
    · exact h.incoming _
    · exact .refl _
  have hmatches : q.matches t = q.matches u := by
    funext v
    rw [VectorQuery.matches, VectorQuery.matches, h.nodes]
  rw [selectVectors, selectVectors, h.vectors, hmatches]
  refine sort_eq_of_perm ((hids.filterMap _).filter _) fun a ha b hb => ?_
  have hrow {v : Vector}
      (hv : v ∈ ((u.vectorIds q).filterMap (u.vectors[·]?)).filter (q.matches u)) :
      v ∈ rows u.vectors := by
    obtain ⟨i, -, hi⟩ := List.mem_filterMap.1 (List.mem_filter.1 hv).1
    exact mem_rows.2 ⟨i, hi⟩
  exact eq_of_chronological hid (hrow ha) (hrow hb)

end Tables.Same

/-! ## Requests -/

section Requests

variable {t u : Tables} (h : t.Same u)
include h

theorem Revision.accept_same (r : Revision) : r.accept t = r.accept u := by
  cases r <;> simp only [accept, acceptNode, acceptVector, acceptInfo, acceptTransmission, h.nodes,
    h.vectors, h.infos, h.transmissions, h.requireAll_eq]

namespace Request

theorem accept_same (r : Request) : r.accept t = r.accept u := by
  cases r with
  | insert r => rw [accept, accept, Record.accept, Record.accept, h.has_eq, h.requireAll_eq]
  | revise r => exact r.accept_same h
  | _ => rfl

theorem reply_same (ht : t.Keyed) (r : Request) : r.reply t = r.reply u := by
  cases r with
  | find k => simp only [reply, h.find?_eq]
  | nodes q => simp only [reply, Tables.selectNodes, h.nodes]
  | vectors q => simp only [reply, h.selectVectors_eq ht]
  | infos q => simp only [reply, Tables.selectInfos, h.infos]
  | transmissions q =>
    have hmatches : q.matches t = q.matches u := by
      funext m
      rw [TransmissionQuery.matches, TransmissionQuery.matches, h.infos]
    simp only [reply, Tables.selectTransmissions, h.transmissions, hmatches]
  | transformations q => simp only [reply, Tables.selectTransformations, h.transformations]
  | _ => rfl

end Request

end Requests

/-- The transactions `tx` and `tx'` differ in the order of what they wrote and of the lists of their
indexes only. -/
structure Transaction.Alike (tx tx' : Transaction) : Prop where
  eq : tx' = { tx with view := tx'.view, writes := tx'.writes }
  view : tx.view.Same tx'.view
  writes : tx.writes.Perm tx'.writes

namespace Transaction.Alike

variable {tx tx' : Transaction} (h : tx.Alike tx')
include h

theorem check_eq (r : Request) : r.check tx' = r.check tx := by
  rw [Request.check, Request.check, ← Request.accept_same h.view, h.eq]

/-- A request is answered alike in `tx` and `tx'`. -/
theorem answer_eq (ht : tx.view.Keyed) (r : Request) : r.answer tx' = r.answer tx := by
  rw [Request.answer_eq, Request.answer_eq, h.check_eq, Request.reply_same h.view ht]

/-- A request leaves `tx` and `tx'` alike. -/
theorem after (r : Request) : (r.after tx).Alike (r.after tx') := by
  have hcheck := h.check_eq r
  cases hc : r.check tx with
  | error e => rwa [Request.after_of_error hc, Request.after_of_error (hcheck.trans hc)]
  | ok u =>
    rw [Request.after_of_ok hc, Request.after_of_ok (hcheck.trans hc), h.eq]
    have hstore (s : Record) : (tx.store s).Alike
        (Transaction.store s { tx with view := tx'.view, writes := tx'.writes }) :=
      ⟨rfl, h.view.put s, h.writes.insert s.key⟩
    cases r with
    | insert s => exact hstore s
    | revise s => exact hstore s.record
    | vectors q => simp only [Request.note]; split <;> exact ⟨rfl, h.view, h.writes⟩
    | transmissions q => simp only [Request.note]; split <;> exact ⟨rfl, h.view, h.writes⟩
    | _ => exact ⟨rfl, h.view, h.writes⟩

omit h in
theorem refl (tx : Transaction) : tx.Alike tx := ⟨rfl, .refl _, .refl _⟩

omit h in
/-- To list what `tx` wrote as `ws`, in another order, makes no difference. -/
theorem relist {ws : List Key} (hws : tx.writes.Perm ws) :
    tx.Alike { tx with writes := ws } := ⟨rfl, .refl _, hws⟩

/-- Several requests are answered alike in `tx` and `tx'`. -/
theorem trace_eq (ht : tx.view.Keyed) (rs : List Request) :
    Request.trace rs tx' = Request.trace rs tx := by
  induction rs generalizing tx tx' with
  | nil => rfl
  | cons r rs ih =>
    have hkeyed : (r.after tx).view.Keyed := (Transaction.Becomes.afterAll [r] tx).keyed ht
    rw [Request.trace, Request.trace, h.answer_eq ht, ih (h.after r) hkeyed]

end Transaction.Alike

/-! ## What a commit leaves -/

namespace Committed

/-- The tables of `c` and `c'` are the same, and the accounts of their changes are equal. -/
structure Alike (c c' : Committed) : Prop where
  tables : c.tables.Same c'.tables
  version : c.version = c'.version
  recordVersions : c.recordVersions = c'.recordVersions
  tableVersions : c.tableVersions = c'.tableVersions

/-- A commit indexes what is new to the committed tables, and moves no vector that it found there.
-/
theorem indexedOver_apply {tx : Transaction} (htx : tx.view.Keyed) (c : Committed) :
    c.tables.IndexedOver (c.apply tx).tables := by
  -- A vector that is met on the way was committed before, or is that of the view.
  refine (apply_induction (Q := fun t => c.tables.IndexedOver t ∧
    ∀ k, t.find? k = c.tables.find? k ∨ t.find? k = tx.view.find? k) ?_
      ⟨.refl _, fun k => .inl rfl⟩).1
  intro k _ t ⟨hindexed, hfrom⟩
  rw [Tables.copy]
  cases hr : tx.view.find? k with
  | none => exact ⟨hindexed, hfrom⟩
  | some r =>
    have hkey := htx k r hr
    subst hkey
    refine ⟨hindexed.put_of_new_ends fun v v' hv hnew hv' => ?_, fun l => ?_⟩
    · subst hv
      rcases hfrom (.vector v.id) with hfind | hfind
      · simp [Tables.find?, hnew, hv'] at hfind
      · rw [show tx.view.find? (.vector v.id) = _ from hr, Tables.find?_vector, hv'] at hfind
        cases hfind
        exact ⟨rfl, rfl⟩
    · rw [Tables.find?_put]
      split
      · rename_i hl
        subst hl
        exact .inr hr.symm
      · exact hfrom l

/-- What a commit leaves depends neither on the order in which it copies nor on that of the lists
which it finds. -/
theorem Alike.apply {c c' : Committed} (h : c.Alike c') {tx tx' : Transaction} (htx : tx.view.Keyed)
    (h' : tx.Alike tx') : (c.apply tx).Alike (c'.apply tx') := by
  have htx' : tx'.view.Keyed := fun k r hr => htx k r (by rwa [h'.view.find?_eq])
  have hmem (k : Key) : k ∈ tx.writes ↔ k ∈ tx'.writes := h'.writes.mem_iff
  have hexists (e : Entity) : (∃ k ∈ tx.writes, k.entity = e) ↔ ∃ k ∈ tx'.writes, k.entity = e := by
    simp only [hmem]
  refine ⟨(indexedOver_apply htx c).same (indexedOver_apply htx' c') h.tables fun k => ?_, ?_, ?_,
    ?_⟩
  · rw [find?_apply htx, find?_apply htx', h.tables.find?_eq, h'.view.find?_eq]
    simp only [hmem]
  · rw [version_apply, version_apply, h.version, h'.writes.isEmpty_eq]
  · refine ExtTreeMap.ext_getElem? fun k => ?_
    rw [recordVersions_apply, recordVersions_apply, h.version, h.recordVersions]
    simp only [hmem]
  · refine ExtTreeMap.ext_getElem? fun e => ?_
    rw [tableVersions_apply, tableVersions_apply, h.version, h.tableVersions]
    simp only [hexists]

end Committed

/-! ## Worlds -/

/-- The stores `s` and `s'` differ in the order of lists only. -/
structure Store.Alike (s s' : Store) : Prop where
  eq : s' = { s with committed := s'.committed }
  committed : s.committed.Alike s'.committed

/-- The sessions `s` and `s'` differ in the order of lists only. What they answered is the same. -/
structure Session.Alike {α : Type} (s s' : Session α) : Prop where
  start : s.start.Alike s'.start
  tx : s.tx.Alike s'.tx
  note : s.note = s'.note
  began : s.began = s'.began

/-- The worlds `w` and `w'` differ in the order of lists only. -/
structure World.Alike {α : Type} (w w' : World α) : Prop where
  store : w.store.Alike w'.store
  sessions : ∀ name, Option.Rel Session.Alike (w.sessions name) (w'.sessions name)
  log : List.Forall₂ Session.Alike w.log w'.log

theorem Store.Alike.conflicts_eq {s s' : Store} (h : s.Alike s') {tx tx' : Transaction}
    (htx : tx.Alike tx') : s'.conflicts tx' = s.conflicts tx := by
  have hnewer : s'.committed.recordNewer = s.committed.recordNewer := by
    funext v k
    rw [Committed.recordNewer, Committed.recordNewer, h.committed.recordVersions]
  have htable : s'.committed.tableNewer = s.committed.tableNewer := by
    funext v e
    rw [Committed.tableNewer, Committed.tableNewer, h.committed.tableVersions]
  have hperm : (tx.reads ++ tx.writes).Perm (tx.reads ++ tx'.writes) := htx.writes.append_left _
  rw [Store.conflicts, Store.conflicts, Committed.isStale, Committed.isStale, hnewer, htable,
    htx.eq, hperm.any_eq]

theorem Store.Alike.refl (s : Store) : s.Alike s := ⟨rfl, .refl _, rfl, rfl, rfl⟩

/-- A commit of `tx` in `s` fares like one of `tx'` in `s'`, and what the two leave is alike. -/
theorem Store.Alike.commit {s s' : Store} (h : s.Alike s') {tx tx' : Transaction}
    (hkeyed : tx.view.Keyed) (htx : tx.Alike tx') :
    (s'.commit tx').1 = (s.commit tx).1 ∧ (s.commit tx).2.Alike (s'.commit tx').2 := by
  have hconflicts := h.conflicts_eq htx
  cases hc : s.conflicts tx with
  | true =>
    rw [Store.commit_of_conflicts hc, Store.commit_of_conflicts (hconflicts.trans hc), htx.eq]
    exact ⟨rfl, h⟩
  | false =>
    rw [Store.commit_of_not_conflicts hc, Store.commit_of_not_conflicts (hconflicts.trans hc)]
    refine ⟨rfl, ?_, h.committed.apply hkeyed htx⟩
    rw [h.eq, htx.eq]
    rfl

namespace World.Alike

variable {α : Type} {w w' : World α} (h : w.Alike w')
include h

/-- Under each name there is no session in `w` and none in `w'`, or there is one in both. -/
theorem sessions_cases (name : Nat) : (w.sessions name = none ∧ w'.sessions name = none) ∨
    ∃ s s', w.sessions name = some s ∧ w'.sessions name = some s' ∧ s.Alike s' := by
  have hsessions := h.sessions name
  generalize w.sessions name = o at hsessions ⊢
  generalize w'.sessions name = o' at hsessions ⊢
  cases hsessions with
  | some halike => exact .inr ⟨_, _, rfl, rfl, halike⟩
  | none => exact .inl ⟨rfl, rfl⟩

theorem put (name : Nat) {s s' : Option (Session α)} (hs : Option.Rel Session.Alike s s') :
    (w.put name s).Alike (w'.put name s') where
  store := h.store
  sessions i := by
    change Option.Rel _ (Function.update w.sessions name s i)
      (Function.update w'.sessions name s' i)
    rw [Function.update_apply, Function.update_apply]
    split
    · exact hs
    · exact h.sessions i
  log := h.log

theorem withStore {s s' : Store} (hs : s.Alike s') :
    World.Alike { w with store := s } { w' with store := s' } := ⟨hs, h.sessions, h.log⟩

theorem withLog {s s' : Store} (hs : s.Alike s') {more more' : List (Session α)}
    (hmore : List.Forall₂ Session.Alike more more') :
    World.Alike { w with store := s, log := w.log ++ more }
      { w' with store := s', log := w'.log ++ more' } :=
  ⟨hs, h.sessions, List.rel_append h.log hmore⟩

theorem begin (name : Nat) (mode : TxMode) (isolation : Isolation) (note : α) :
    (w.begin name mode isolation note).Alike (w'.begin name mode isolation note) := by
  have htx : (w.store.begin mode isolation).1.Alike (w'.store.begin mode isolation).1 := by
    rw [h.store.eq]
    refine ⟨?_, h.store.committed.tables, .refl _⟩
    simp only [Store.begin, h.store.committed.version]
  have hstore : (w.store.begin mode isolation).2.Alike (w'.store.begin mode isolation).2 :=
    ⟨by rw [h.store.eq]; rfl, h.store.committed⟩
  exact (h.withStore hstore).put name (.some ⟨htx, htx, rfl, h.log.length_eq⟩)

/-- What was asked and answered is the same. -/
theorem notes_eq (name : Nat) :
    (w.sessions name).map (·.note) = (w'.sessions name).map (·.note) := by
  rcases h.sessions_cases name with ⟨hs, hs'⟩ | ⟨s, s', hs, hs', halike⟩
  · rw [hs, hs']
  · rw [hs, hs']
    exact congrArg some halike.note

theorem rollback (name : Nat) : (w.rollback name).Alike (w'.rollback name) := h.put name .none

theorem aside {f : Store → Store}
    (hf : ∀ s c, f { s with committed := c } = { f s with committed := c }) :
    (w.aside f).Alike (w'.aside f) := by
  have hkeep (s : Store) : (f s).committed = s.committed := by
    have hs := congrArg Store.committed (hf s s.committed)
    exact hs
  refine h.withStore ⟨?_, ?_⟩
  · rw [h.store.eq, hf]
  · rw [hkeep, hkeep]
    exact h.store.committed

theorem commit (hw : w.Sound) (name : Nat) : (w.commit name).Alike (w'.commit name) := by
  rcases h.sessions_cases name with ⟨hs, hs'⟩ | ⟨s, s', hs, hs', halike⟩ <;>
    simp only [World.commit, hs, hs']
  · exact h
  · obtain ⟨hanswer, hstore⟩ := h.store.commit (hw.sessions name s hs).keyed_view halike.tx
    generalize w.store.commit s.tx = result at hanswer hstore ⊢
    generalize w'.store.commit s'.tx = result' at hanswer hstore ⊢
    obtain ⟨answer, store⟩ := result
    obtain ⟨answer', store'⟩ := result'
    obtain rfl : answer' = answer := hanswer
    cases answer' with
    | error e => exact (h.withStore hstore).put name .none
    | ok u => exact (h.withLog hstore (.cons halike .nil)).put name .none

end World.Alike

namespace World

/-- What is asked of an open transaction changes its session and nothing else. -/
theorem step_ask {w : World Trace} {name : Nat} {s : Session Trace} (hs : w.sessions name = some s)
    (r : Request) : w.step (.ask name r) =
      w.put name (some { s with tx := r.after s.tx, note := s.note ++ [(r, r.answer s.tx)] }) := by
  simp only [step, use, hs, Store.run, Op.access, Request.after, Request.answer]
  cases r.perform s.tx <;> rfl

namespace Alike

variable {w w' : World Trace} (h : w.Alike w') (hw : w.Sound)
include h hw

theorem ask (name : Nat) (r : Request) : (w.step (.ask name r)).Alike (w'.step (.ask name r)) := by
  rcases h.sessions_cases name with ⟨hs, hs'⟩ | ⟨s, s', hs, hs', halike⟩
  · rw [World.step, World.step, use, use, hs, hs']
    exact h
  · have hanswer := halike.tx.answer_eq (hw.sessions name s hs).keyed_view r
    rw [step_ask hs, step_ask hs']
    refine h.put name (.some ⟨halike.start, halike.tx.after r, ?_, halike.began⟩)
    simp only [halike.note, hanswer]

theorem step (e : Event) : (w.step e).Alike (w'.step e) := by
  cases e with
  | begin name mode isolation => exact h.begin name mode isolation []
  | ask name r => exact h.ask hw name r
  | commit name => exact h.commit hw name
  | rollback name => exact h.rollback name
  | subscribe log => exact h.aside (f := Store.subscribe log) fun _ _ => rfl
  | drain log =>
    refine h.aside (f := drain log) fun s c => ?_
    simp only [drain, Store.drain?, Store.messages?]
    cases s.logs[log]? <;> rfl

end Alike

/-- Whatever happens, worlds that are `Alike` stay so. -/
theorem Alike.foldl {w w' : World Trace} (h : w.Alike w') (hw : w.Reachable) (events : List Event) :
    (events.foldl World.step w).Alike (events.foldl World.step w') := by
  induction events generalizing w w' with
  | nil => exact h
  | cons e events ih => exact ih (h.step hw.sound e) (reachable_step hw e)

end World

end Propagation
