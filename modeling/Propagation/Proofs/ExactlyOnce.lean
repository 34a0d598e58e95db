import Propagation.Proofs.Handover

/-!
# Exactly-once delivery

In a run of serializable transactions in which transmissions are only sent and received, every
transmission that is committed as received was handed to a behavior exactly once by the
transactions that were committed, and none was handed over twice. A call notes that it searched
the transmissions and stores what it marks, so that of two transactions that would hand over the
same transmission only one is committed, and a call that was made before a transmission was
committed can not pass it over unnoticed.

## Main definitions

* `handed`, `calls`: what was handed over, by several calls and by several sessions.
* `World.useNoted`: run a program in an open transaction, and note what it hands over.
* `World.Delivering`: the runs in which transmissions are only sent and received.
* `World.Delivered`: what is marked as received is what was handed over.

## Main statements

* `World.Delivering.delivered`: this holds in every such run.
* `World.Delivering.exactly_once`: exactly-once delivery.
-/

namespace Propagation

/-- What `calls` handed over, in order. -/
def handed (calls : List Handover) : List Delivery := calls.flatMap (·.deliveries)

@[simp] theorem handed_append (calls more : List Handover) :
    handed (calls ++ more) = handed calls ++ handed more := List.flatMap_append

@[simp] theorem handed_singleton (c : Handover) : handed [c] = c.deliveries := by
  simp [handed]

/-- The calls of the sessions in `log`, in order. -/
def calls (log : List (Session (List Handover))) : List Handover := log.flatMap (·.note)

theorem calls_append (log more : List (Session (List Handover))) :
    calls (log ++ more) = calls log ++ calls more := List.flatMap_append

/-- What was handed over early in `log` was handed over. -/
theorem mem_handed_of_take {log : List (Session (List Handover))} {n : Nat} {d : Delivery}
    (h : d ∈ handed (calls (log.take n))) : d ∈ handed (calls log) := by
  have hsplit := calls_append (log.take n) (log.drop n)
  rw [List.take_append_drop] at hsplit
  rw [hsplit, handed_append]
  exact List.mem_append_left _ h

theorem handed_cons (c : Handover) (cs : List Handover) :
    handed (c :: cs) = c.deliveries ++ handed cs := List.flatMap_cons

theorem mem_handed {cs : List Handover} {d : Delivery} :
    d ∈ handed cs ↔ ∃ c ∈ cs, d ∈ c.deliveries := List.mem_flatMap

/-- If nothing is handed over twice, at most one call of `cs` hands over the transmission `t`. -/
theorem countP_passes_le_one {cs : List Handover}
    (h : ((handed cs).map (·.transmission.id)).Nodup) (t : Transmission) :
    cs.countP (·.passes t) ≤ 1 := by
  induction cs with
  | nil => exact Nat.zero_le 1
  | cons c cs ih =>
    rw [handed_cons, List.map_append, List.nodup_append] at h
    obtain ⟨-, hcs, hdisjoint⟩ := h
    rw [List.countP_cons]
    by_cases hc : c.passes t
    · have hnone : cs.countP (·.passes t) = 0 := by
        rw [List.countP_eq_zero]
        intro c' hc' hpass
        obtain ⟨d, hd, hid, -⟩ := Handover.passes_iff.1 hc
        obtain ⟨d', hd', hid', -⟩ := Handover.passes_iff.1 hpass
        exact hdisjoint _ (List.mem_map_of_mem hd) _
          (List.mem_map_of_mem (mem_handed.2 ⟨c', hc', hd'⟩)) (hid.trans hid'.symm)
      simp only [hnone, if_pos hc, Nat.zero_add, Nat.le_refl]
    · rw [if_neg hc]
      exact ih hcs

/-- If the transmissions that are received in `t` are those that the calls `cs` handed over, then a
transmission is received exactly if one of the calls, and only one, handed it over. -/
theorem Tables.Received.received_iff {t : Tables} (ht : t.Keyed) {cs : List Handover}
    (h : t.Received (handed cs)) {i : TransmissionId} {m : Transmission}
    (hm : t.transmissions[i]? = some m) :
    m.receiveTime.isSome ↔ cs.countP (·.passes m) = 1 := by
  have hid : m.id = i := ht.transmission_id hm
  constructor
  · intro hreceived
    have hmarked : m.isPending = false := by
      rw [Transmission.isPending, Option.isNone_eq_false_iff]
      exact hreceived
    obtain ⟨d, hd, rfl⟩ := h.complete i m hm hmarked
    obtain ⟨c, hc, hdc⟩ := mem_handed.1 hd
    have hpass : c.passes d.transmission := Handover.passes_iff.2 ⟨d, hdc, rfl, h.brings d hd⟩
    have hpos : 0 < cs.countP (·.passes d.transmission) := List.countP_pos_iff.2 ⟨c, hc, hpass⟩
    have hle := countP_passes_le_one h.once d.transmission
    omega
  · intro hone
    obtain ⟨c, hc, hpass⟩ := List.countP_pos_iff.1 (by rw [hone]; exact Nat.one_pos)
    obtain ⟨d, hdc, hdid, -⟩ := Handover.passes_iff.1 hpass
    have hd := mem_handed.2 ⟨c, hc, hdc⟩
    have hstored := h.stored d hd
    rw [hdid, hid, hm] at hstored
    cases hstored
    have hmarked := h.marked _ hd
    rw [Transmission.isPending, Option.isNone_eq_false_iff] at hmarked
    exact hmarked

namespace World

/-- Run the program `op` in the open transaction `name`, and note what its noted run `noted` hands
over. -/
def useNoted (name : Nat) {β : Type} (op : Op β) (noted : Holding (List Handover) β)
    (w : World (List Handover)) : World (List Handover) :=
  match w.sessions name with
  | none => w
  | some s =>
    w.use name op fun _ calls => (final (noted ⟨calls, ⟨s.tx, w.store.mint⟩⟩)).copy

theorem useNoted_of_none {w : World (List Handover)} {name : Nat} (hs : w.sessions name = none)
    {β : Type} (op : Op β) (noted : Holding (List Handover) β) : w.useNoted name op noted = w := by
  rw [useNoted, hs]

theorem useNoted_of_some {w : World (List Handover)} {name : Nat} {s : Session (List Handover)}
    (hs : w.sessions name = some s) {β : Type} (op : Op β) (noted : Holding (List Handover) β) :
    w.useNoted name op noted = w.use name op fun _ calls =>
      (final (noted ⟨calls, ⟨s.tx, w.store.mint⟩⟩)).copy := by
  rw [useNoted, hs]

/-- Runs of serializable transactions that write, in which transmissions are stored only as new
ones that are pending, or by receiving them. A program may be cut into several, between which other
transactions go on; so an `update` that is interrupted is one that returns at once, after which the
rest of it is run. -/
inductive Delivering : World (List Handover) → Prop
  | init (mint : Mint) : Delivering (init mint)
  | begin (name : Nat) {w : World (List Handover)} :
    Delivering w → Delivering (w.begin name .readWrite .serializable [])
  | use (name : Nat) {β : Type} {op : Op β} {noted : Holding (List Handover) β}
    (hn : Notes op noted) {w : World (List Handover)} :
    Delivering w → Delivering (w.useNoted name op noted)
  | commit (name : Nat) {w : World (List Handover)} : Delivering w → Delivering (w.commit name)
  | rollback (name : Nat) {w : World (List Handover)} : Delivering w → Delivering (w.rollback name)
  | aside {f : Store → Store} (hf : ∀ s, (f s).committed = s.committed)
    {w : World (List Handover)} : Delivering w → Delivering (w.aside f)

/-- A world of `Delivering` can come about. -/
theorem Delivering.reachable {w : World (List Handover)} (h : w.Delivering) : w.Reachable := by
  induction h with
  | init mint => exact .init mint
  | begin name _ ih => exact ih.begin name _ _ _
  | @use name β op noted hn w _ ih =>
    cases hs : w.sessions name with
    | none => rw [useNoted_of_none hs]; exact ih
    | some s => rw [useNoted_of_some hs]; exact ih.use name hn.asks _
  | commit name _ ih => exact ih.commit name
  | rollback name _ ih => exact ih.rollback name
  | aside hf _ ih => exact ih.aside hf

end World

/-! ## One session -/

namespace Committed

variable {tx : Transaction} (htx : tx.view.Keyed) {c : Committed} {i : TransmissionId}
include htx

/-- A transmission that was written is committed as it is in the view. -/
theorem transmissions_apply_of_mem (hi : .transmission i ∈ tx.writes)
    (hview : tx.view.has (.transmission i)) :
    (c.apply tx).tables.transmissions[i]? = tx.view.transmissions[i]? := by
  have hfind := find?_apply htx c (.transmission i)
  obtain ⟨r, hr⟩ := Option.isSome_iff_exists.1 hview
  rw [if_pos hi, hr, Option.some_or, ← hr] at hfind
  exact Option.map_injective (fun _ _ => Record.transmission.inj) hfind

/-- A transmission that was not written stays as it was. -/
theorem transmissions_apply_of_not_mem (hi : .transmission i ∉ tx.writes) :
    (c.apply tx).tables.transmissions[i]? = c.tables.transmissions[i]? := by
  have hfind := find?_apply htx c (.transmission i)
  rw [if_neg hi] at hfind
  exact Option.map_injective (fun _ _ => Record.transmission.inj) hfind

end Committed

/-- In the session `s`, what was received is what its calls handed over, on top of what was received
before, and each of its calls handed over what was received. -/
structure Session.Delivering (log : List (Session (List Handover)))
    (s : Session (List Handover)) : Prop where
  mode : s.tx.mode = .readWrite
  isolation : s.tx.isolation = .serializable
  start : s.start.view.Received (handed (calls (log.take s.began)))
  receiving : s.tx.Receiving s.start.view (handed (calls (log.take s.began))) (handed s.note)
  faithful : ∀ c ∈ s.note, c.Faithful
  scanned : s.note ≠ [] → .transmission ∈ s.tx.scans

namespace Session.Delivering

variable {log : List (Session (List Handover))} {s : Session (List Handover)}

theorem append (h : s.Delivering log) (hs : s.began ≤ log.length)
    (more : List (Session (List Handover))) : s.Delivering (log ++ more) where
  mode := h.mode
  isolation := h.isolation
  start := by rw [List.take_append_of_le_length hs]; exact h.start
  receiving := by rw [List.take_append_of_le_length hs]; exact h.receiving
  faithful := h.faithful
  scanned := h.scanned

/-- Requests of `SendsOnly` leave the account as it is. -/
theorem becomes (h : s.Delivering log) {tx : Transaction}
    (htx : s.tx.Becomes Request.SendsOnly tx) : Session.Delivering log { s with tx } where
  mode := htx.mode_eq.trans h.mode
  isolation := htx.isolation_eq.trans h.isolation
  start := h.start
  receiving := h.receiving.becomes htx
  faithful := h.faithful
  scanned hnote := htx.mem_scans (h.scanned hnote)

/-- A hand-over by `receivePending` extends the account by what is handed over. -/
theorem receive (h : s.Delivering log) (hclosed : s.tx.view.Closed) (hkeyed : s.tx.view.Keyed)
    (n : Node) (mint : Mint) :
    ∃ h', Handover.Received n ⟨s.note, s.tx, mint⟩ h' ∧
      Session.Delivering log { s with tx := h'.scene.tx, note := h'.copy } := by
  obtain ⟨deliveries, scene, hrun, hreceiving, hscan⟩ :=
    h.receiving.receivePending h.mode hclosed hkeyed n mint
  have hbecomes := n.asks_receivePending { tx := s.tx, mint }
  rw [hrun] at hbecomes
  obtain ⟨hdeliveries, hfaithful⟩ := Handover.made_of_receivePending hkeyed hclosed h.mode hrun
    fun d hd => hreceiving.received.stored d (List.mem_append_right _
      (List.mem_append_right _ hd))
  refine ⟨_, ⟨deliveries, scene, hrun, rfl⟩, ?_⟩
  exact {
    mode := hbecomes.mode_eq.trans h.mode
    isolation := hbecomes.isolation_eq.trans h.isolation
    start := h.start
    receiving := by
      rw [handed_append, handed_singleton, hdeliveries]
      exact hreceiving
    faithful := List.forall_mem_append.2 ⟨h.faithful, List.forall_mem_singleton.2 hfaithful⟩
    scanned := fun _ => hscan }

/-- A program `noted` extends the account by what it hands over. -/
theorem noted (h : s.Delivering log) (hclosed : s.tx.view.Closed) (hkeyed : s.tx.view.Keyed)
    {β : Type} {op : Op β} {noted : Holding (List Handover) β} (hn : Notes op noted)
    (mint : Mint) :
    let h' := final (noted ⟨s.note, s.tx, mint⟩)
    Session.Delivering log { s with tx := h'.scene.tx, note := h'.copy } := by
  let I (h : Holder (List Handover)) : Prop :=
    Session.Delivering log { s with tx := h.scene.tx, note := h.copy } ∧
      h.scene.tx.view.Closed ∧ h.scene.tx.view.Keyed
  have hsend : ∀ (h : Holder (List Handover)) (scene : Scene), I h →
      h.scene.tx.Becomes Request.SendsOnly scene.tx → I { h with scene } := by
    rintro h scene ⟨hs, hclosed, hkeyed⟩ hbecomes
    exact ⟨hs.becomes hbecomes, hbecomes.closed hclosed, hbecomes.keyed hkeyed⟩
  have hreceive : ∀ (n : Node) (h : Holder (List Handover)), I h →
      ∃ h', Handover.Received n h h' ∧ I h' := by
    rintro n h ⟨hs, hclosed, hkeyed⟩
    obtain ⟨h', hreceived, hs'⟩ := hs.receive hclosed hkeyed n h.scene.mint
    have hbecomes := hreceived.becomes
    exact ⟨h', hreceived, hs', hbecomes.closed hclosed, hbecomes.keyed hkeyed⟩
  exact (hn.keeps hsend hreceive (h := ⟨s.note, s.tx, mint⟩) ⟨h, hclosed, hkeyed⟩).1

/-- The session `s` hands over nothing twice. -/
theorem nodup (h : s.Delivering log) : ((handed s.note).map (·.transmission.id)).Nodup := by
  have honce := h.receiving.received.once
  rw [List.map_append, List.nodup_append] at honce
  exact honce.2.1

/-- What `s` stored under the key of a transmission was not there, or pending, when `s` began. -/
theorem pending_start (h : s.Delivering log) (hkeyed : s.start.view.Keyed) {i : TransmissionId}
    (hi : .transmission i ∈ s.tx.writes) {m : Transmission}
    (hm : s.start.view.transmissions[i]? = some m) : m.isPending := by
  rcases h.receiving.others i hi with hnone | ⟨d, hd, hid⟩
  · rw [hnone] at hm
    cases hm
  -- A transmission that was received before is in the first part of the list and can not be
  -- handed over again in the second.
  · cases hp : m.isPending with
    | true => rfl
    | false =>
      obtain ⟨d', hd', rfl⟩ := h.start.complete i m hm hp
      have hid' := hkeyed.transmission_id hm
      have honce := h.receiving.received.once
      rw [List.map_append, List.nodup_append] at honce
      exact absurd (hid'.trans hid.symm) (honce.2.2 _ (List.mem_map_of_mem hd') _
        (List.mem_map_of_mem hd))

/-- What was handed over in committed sessions is not written by `s`, if nothing that `s` wrote has
changed since it began. -/
theorem not_mem_writes (h : s.Delivering log) (hs : s.Sound (log.map (·.tx))) {c : Committed}
    (hc : c.tables.Received (handed (calls log)))
    (hsame : ∀ k ∈ s.tx.writes, c.tables.find? k = s.start.view.find? k) {d : Delivery}
    (hd : d ∈ handed (calls log)) : .transmission d.transmission.id ∉ s.tx.writes := by
  intro hw
  have hstart := (hsame _ hw).symm.trans (Tables.find?_transmission.2 (hc.stored d hd))
  have hp := h.pending_start hs.keyed_start hw (Tables.find?_transmission.1 hstart)
  rw [hc.marked d hd] at hp
  cases hp

/-- A commit of `s`, before which nothing that `s` wrote has changed since it began, adds what `s`
handed over to what was handed over before. -/
theorem received_apply (h : s.Delivering log) (hs : s.Sound (log.map (·.tx))) {c : Committed}
    (hc : c.tables.Received (handed (calls log)))
    (hsame : ∀ k ∈ s.tx.writes, c.tables.find? k = s.start.view.find? k) :
    (c.apply s.tx).tables.Received (handed (calls log) ++ handed s.note) := by
  have hown : ∀ d ∈ handed s.note, d ∈ handed (calls (log.take s.began)) ++ handed s.note :=
    fun d hd => List.mem_append_right _ hd
  constructor
  case stored =>
    refine List.forall_mem_append.2 ⟨?_, ?_⟩
    · intro d hd
      have hw := h.not_mem_writes hs hc hsame hd
      rw [Committed.transmissions_apply_of_not_mem hs.keyed_view hw]
      exact hc.stored d hd
    · intro d hd
      have hw := h.receiving.written d hd
      rw [Committed.transmissions_apply_of_mem hs.keyed_view hw (hs.has_of_writes hw)]
      exact h.receiving.received.stored d (hown d hd)
  case marked =>
    exact List.forall_mem_append.2
      ⟨hc.marked, fun d hd => h.receiving.received.marked d (hown d hd)⟩
  case brings =>
    exact List.forall_mem_append.2
      ⟨hc.brings, fun d hd => h.receiving.received.brings d (hown d hd)⟩
  case complete =>
    intro i m hm hmarked
    by_cases hi : .transmission i ∈ s.tx.writes
    · rw [Committed.transmissions_apply_of_mem hs.keyed_view hi (hs.has_of_writes hi)] at hm
      obtain ⟨d, hd, rfl⟩ := h.receiving.received.complete i m hm hmarked
      refine ⟨d, ?_, rfl⟩
      exact List.mem_append.2 ((List.mem_append.1 hd).imp_left mem_handed_of_take)
    · rw [Committed.transmissions_apply_of_not_mem hs.keyed_view hi] at hm
      obtain ⟨d, hd, rfl⟩ := hc.complete i m hm hmarked
      exact ⟨d, List.mem_append_left _ hd, rfl⟩
  case once =>
    rw [List.map_append, List.nodup_append]
    refine ⟨hc.once, h.nodup, ?_⟩
    intro a ha b hb hab
    obtain ⟨d, hd, rfl⟩ := List.mem_map.1 ha
    obtain ⟨d', hd', rfl⟩ := List.mem_map.1 hb
    exact h.not_mem_writes hs hc hsame hd (hab ▸ h.receiving.written d' hd')

end Session.Delivering

/-! ## All sessions -/

namespace World

/-- What is marked as received in `w` is what was handed over: by the committed sessions for what is
committed, and by each open session for its view. -/
structure Delivered (w : World (List Handover)) : Prop where
  committed : w.store.committed.tables.Received (handed (calls w.log))
  faithful : ∀ c ∈ calls w.log, c.Faithful
  sessions : ∀ name s, w.sessions name = some s → s.Delivering w.log

variable {w : World (List Handover)}

theorem delivered_init (mint : Mint) : (init mint : World (List Handover)).Delivered where
  committed := Tables.received_empty
  faithful _ hc := by cases hc
  sessions _ _ h := by cases h

/-- A session begins with nothing handed over on top of what was. -/
theorem Delivered.begin (h : w.Delivered) (name : Nat) :
    (w.begin name .readWrite .serializable []).Delivered where
  committed := h.committed
  faithful := h.faithful
  sessions i t ht := by
    rcases sessions_begin ht with rfl | ht
    · have hstart : w.store.committed.tables.Received
          (handed (calls (w.log.take w.log.length))) := by
        rw [List.take_length]
        exact h.committed
      exact ⟨rfl, rfl, hstart, .refl hstart rfl, List.forall_mem_nil _, fun hne => absurd rfl hne⟩
    · exact h.sessions i t ht

/-- A program `noted` extends the account of its session by what it hands over. -/
theorem Delivered.use (h : w.Delivered) (hw : w.Reachable) (name : Nat) {β : Type} {op : Op β}
    {noted : Holding (List Handover) β} (hn : Notes op noted) :
    (w.useNoted name op noted).Delivered := by
  cases hs : w.sessions name with
  | none =>
    rw [useNoted_of_none hs]
    exact h
  | some s =>
    have hsession := (h.sessions name s hs).noted (hw.closed_view hs)
      (hw.sound.sessions name s hs).keyed_view hn w.store.mint
    rw [useNoted_of_some hs]
    refine ⟨?_, ?_, ?_⟩
    · rw [committed_use, log_use]
      exact h.committed
    · rw [log_use]
      exact h.faithful
    · intro i t ht
      rw [log_use]
      rcases sessions_use ht with ⟨s', hs', rfl⟩ | ht
      · rw [hs] at hs'
        cases hs'
        rw [used, ← hn.scene_final ⟨s.note, s.tx, w.store.mint⟩]
        exact hsession
      · exact h.sessions i t ht

/-- A commit adds what the session `name` handed over. -/
theorem Delivered.commit (h : w.Delivered) (hw : w.Sound) (name : Nat) :
    (w.commit name).Delivered := by
  rcases commit_cases w name with ⟨hlog, hcommitted⟩ | ⟨s, hs, hc, hlog, hcommitted⟩
  · refine ⟨?_, ?_, ?_⟩
    · rw [hlog, hcommitted]
      exact h.committed
    · rw [hlog]
      exact h.faithful
    · intro i t ht
      rw [hlog]
      exact h.sessions i t (sessions_commit ht)
  · have hsession := h.sessions name s hs
    have hcalls : calls (w.log ++ [s]) = calls w.log ++ s.note := by
      rw [calls_append]
      simp [calls]
    refine ⟨?_, ?_, ?_⟩
    · rw [hlog, hcommitted, hcalls, handed_append]
      apply hsession.received_apply (hw.sessions name s hs) h.committed
      intro k hk
      exact hw.find?_committed hs hsession.isolation hc (.inr (.inl hk))
    · rw [hlog, hcalls]
      exact List.forall_mem_append.2 ⟨h.faithful, hsession.faithful⟩
    · intro i t ht
      have ht := sessions_commit ht
      have hbegan := (hw.sessions i t ht).began_le
      rw [List.length_map] at hbegan
      rw [hlog]
      exact (h.sessions i t ht).append hbegan _

/-- In every run of `Delivering`, what is marked as received is what was handed over. -/
theorem Delivering.delivered (h : w.Delivering) : w.Delivered := by
  induction h with
  | init mint => exact delivered_init mint
  | begin name _ ih => exact ih.begin name
  | use name hn hw ih => exact ih.use hw.reachable name hn
  | commit name hw ih => exact ih.commit hw.reachable.sound name
  | rollback name _ ih =>
    exact ⟨ih.committed, ih.faithful, fun i t ht => ih.sessions i t (sessions_rollback ht)⟩
  | @aside f hf w _ ih =>
    have hc := ih.committed
    rw [← hf w.store] at hc
    exact ⟨hc, ih.faithful, ih.sessions⟩

/-- A session `s` that has made a call ends in a conflict if a transmission was committed since `s`
began, and then nothing changes. -/
theorem Delivered.commit_of_transmission (h : w.Delivered) (hw : w.Sound) {name : Nat}
    {s : Session (List Handover)} (hs : w.sessions name = some s) (hnote : s.note ≠ [])
    {u : Session (List Handover)} (hu : u ∈ w.log.drop s.began) {i : TransmissionId}
    (hi : .transmission i ∈ u.tx.writes) :
    w.store.commit s.tx = (.error (.conflict s.tx.id), w.store) := by
  have hsession := h.sessions name s hs
  refine Store.commit_of_conflicts ((hw.conflicts_iff hs).2 ⟨hsession.isolation, u, hu, _, hi, ?_⟩)
  exact .inr (.inr (hsession.scanned hnote))

/-- A transmission that waits goes on to wait when a session `s` is committed that has not handed it
over. -/
theorem Delivered.pending_commit (h : w.Delivered) (hw : w.Sound) {name : Nat}
    {s : Session (List Handover)} (hs : w.sessions name = some s) {i : TransmissionId}
    {m : Transmission} (hm : w.store.committed.tables.transmissions[i]? = some m)
    (hown : ∀ d ∈ handed s.note, d.transmission.id ≠ i) :
    (w.store.commit s.tx).2.committed.tables.transmissions[i]? = some m := by
  cases hc : w.store.conflicts s.tx with
  | true => rw [Store.commit_of_conflicts hc]; exact hm
  | false =>
    have hsession := h.sessions name s hs
    have hkeyed := (hw.sessions name s hs).keyed_view
    rw [Store.commit_of_not_conflicts hc]
    have hi : .transmission i ∉ s.tx.writes := by
      intro hi
      have hsame := hw.find?_committed hs hsession.isolation hc (.inr (.inl hi))
      rcases hsession.receiving.others i hi with hnone | ⟨d, hd, hid⟩
      · rw [Tables.find?_transmission.2 hm, Tables.find?, hnone] at hsame
        cases hsame
      · exact hown d hd hid
    exact (Committed.transmissions_apply_of_not_mem hkeyed hi).trans hm

/-- Exactly-once delivery. A committed transmission has a time of receipt exactly if one call of
`Behavior.update` in the committed transactions, and only one, was given its info on behalf of it;
nothing is handed over twice by committed transactions, nor by one transaction; each call is given
what its node received and nothing else; and a transmission that is committed while a transaction
receives makes the commit of this transaction fail, or waits on unless the transaction handed it
over. What is noted of a program is noted of the program itself, which answers and does the same. -/
theorem Delivering.exactly_once (h : w.Delivering) :
    (∀ (i : TransmissionId) t, w.store.committed.tables.transmissions[i]? = some t →
      (t.receiveTime.isSome ↔ (calls w.log).countP (·.passes t) = 1)) ∧
    ((handed (calls w.log)).map (·.transmission.id)).Nodup ∧
    (∀ c ∈ calls w.log, c.Faithful) ∧
    (∀ name s, w.sessions name = some s →
      ((handed s.note).map (·.transmission.id)).Nodup ∧
      (∀ c ∈ s.note, c.Faithful) ∧
      (s.note ≠ [] → ∀ u ∈ w.log.drop s.began, ∀ i : TransmissionId,
        .transmission i ∈ u.tx.writes →
          w.store.commit s.tx = (.error (.conflict s.tx.id), w.store)) ∧
      ∀ (i : TransmissionId) t, w.store.committed.tables.transmissions[i]? = some t →
        t.isPending → (∀ d ∈ handed s.note, d.transmission.id ≠ i) →
          (w.store.commit s.tx).2.committed.tables.transmissions[i]? = some t) ∧
    ∀ (β : Type) (op : Op β) (noted : Holding (List Handover) β), Notes op noted →
      ∀ h, Holding.forget (noted h) = op h.scene := by
  have hd := h.delivered
  have hw := h.reachable.sound
  refine ⟨?_, hd.committed.once, hd.faithful, ?_, fun _ _ _ hn => hn.forget⟩
  · intro i t ht
    exact hd.committed.received_iff hw.keyed_committed ht
  · intro name s hs
    have hsession := hd.sessions name s hs
    refine ⟨hsession.nodup, hsession.faithful, ?_, ?_⟩
    · intro hnote u hu i hi
      exact hd.commit_of_transmission hw hs hnote hu hi
    · intro i t ht _ hown
      exact hd.pending_commit hw hs ht hown

/-- A node that is joined to itself. -/
def addressee : Node := { id := ⟨100⟩, kind := .agent, creationTime := .ofMoment .first }

/-- Store the node with an info of its own, which it sends to all that it is joined to. -/
def post : Op (List Transmission) := do
  Access.insert (.node addressee)
  Access.insert (.vector { id := ⟨100⟩, origin := ⟨100⟩, destination := ⟨100⟩
                           creationTime := .ofMoment .first })
  Access.insert (.info { id := ⟨100⟩, origin := ⟨100⟩, creationTime := .ofMoment .first })
  addressee.transmit .plain none none

theorem asks_post : Asks Request.SendsOnly post := by
  have hinsert {r : Record} (hr : Request.SendsOnly (.insert r)) :
      Asks Request.SendsOnly (liftM (Access.insert r) : Op Unit) := .access (.insert hr)
  refine .bind (hinsert trivial) fun _ => .bind (hinsert trivial) fun _ => ?_
  exact .bind (hinsert trivial) fun _ => Node.sendsOnly_transmit Behavior.asks_plain _ _ _

/-- A transaction sends, and after its commit another one receives. -/
def mailbox : World (List Handover) :=
  World.commit 0 (World.useNoted 0 (addressee.receiveAll .replicator)
    (addressee.receiveAllNoted fun n infos => liftM (Behavior.replicator.update n infos))
    (World.begin 0 .readWrite .serializable [] (World.commit 0 (World.useNoted 0 post (liftM post)
      (World.begin 0 .readWrite .serializable [] (init .still))))))

theorem delivering_mailbox : mailbox.Delivering := by
  have hreplicator : Behavior.replicator.Asks Request.SendsOnly :=
    Behavior.asks_replicator fun _ => Request.sendsOnly_of_delivers
  rw [mailbox]
  refine .commit 0 (.use 0 ?_ (.begin 0 (.commit 0 (.use 0 (.op asks_post) (.begin 0 ?_)))))
  · exact .receiveAll _ fun n infos => .op (hreplicator.update n infos)
  · exact .init .still

/-- The transmission is received, and was handed over exactly once. -/
theorem exactly_once_mailbox : mailbox.Delivering ∧
    ∃ t, mailbox.store.committed.tables.transmissions[(⟨0⟩ : TransmissionId)]? = some t ∧
      t.receiveTime.isSome ∧ (calls mailbox.log).countP (·.passes t) = 1 := by
  have hreceived : mailbox.store.committed.tables.transmissions[(⟨0⟩ : TransmissionId)]?.any
      (·.receiveTime.isSome) := by decide +kernel
  obtain ⟨t, ht, hr⟩ := (Option.any_eq_true _ _).1 hreceived
  obtain ⟨hreceipts, -⟩ := Delivering.exactly_once delivering_mailbox
  exact ⟨delivering_mailbox, t, ht, hr, (hreceipts _ _ ht).1 hr⟩

end World

end Propagation
