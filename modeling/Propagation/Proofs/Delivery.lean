import Propagation.Proofs.Index
import Propagation.Proofs.References

/-!
# Receiving and handing over

A call of `receiveAll` first marks everything that waits for the node as received, looking up the
infos, and only then lets the behavior take up the infos. Here is what the first half does. In a
transaction that may write it can not fail, so that nothing is marked that is not also handed over.

## Main definitions

* `Request.SendsOnly`: requests that touch transmissions only by storing new ones that wait.
* `Tables.waiting`: the transmissions that wait for a node.
* `Tables.Received`: the transmissions that were received are those of a list of deliveries.
* `Transaction.Receiving`: a transaction has received what it handed over, and nothing else.

## Main statements

* `Node.sendsOnly_transmit`: to send is to make such requests.
* `Tables.mem_waiting`, `Tables.pairwise_waiting`: what waits, and in which order.
* `Transaction.Receiving.becomes`: requests that only send do not disturb this.
* `Transaction.Receiving.receivePending`: to receive all that waits is to extend the list.
-/

namespace Propagation

open Std (ExtTreeMap)

/-- The request stores no transmission, unless it is a new one that is pending. -/
def Request.SendsOnly : Request → Prop
  | .insert (.transmission m) => m.isPending
  | .revise (.transmission _) => False
  | _ => True

theorem Request.sendsOnly_of_delivers {r : Request} (h : r.delivers = false) : r.SendsOnly := by
  cases r with
  | insert s => cases s <;> trivial
  | revise s => cases s <;> trivial
  | _ => trivial

theorem Request.sendsOnly_of_stored?_none {r : Request} (h : r.stored? = none) : r.SendsOnly := by
  cases r <;> trivial

/-- To `transmit` is to store new transmissions that are pending, and no others. -/
theorem Node.sendsOnly_transmit {b : Behavior} (hb : b.Asks Request.SendsOnly) (n : Node)
    (c : Option Content) (r : Option Recipients) : Asks Request.SendsOnly (n.transmit b c r) := by
  apply n.asks_transmit _ hb
  · intro m hm
    exact hm
  · intro r hr
    exact Request.sendsOnly_of_stored?_none hr

/-- A transmission that a request of `SendsOnly` stores is new and pending. -/
theorem Request.SendsOnly.of_writes {r : Request} (hr : r.SendsOnly) {tx : Transaction}
    {m : Transmission} (h : r.writes tx = some (.transmission m)) :
    m.isPending ∧ tx.view.find? (.transmission m.id) = none := by
  obtain ⟨hs, hacc, -⟩ := Request.writes_eq_some.1 h
  cases r with
  | insert s => cases hs; exact ⟨hr, Record.find?_of_accept hacc⟩
  | revise s => cases s <;> first | exact hr.elim | cases hs
  | _ => cases hs

namespace Tables

theorem transmissions_put {t : Tables} {m : Transmission} {i : TransmissionId} :
    (t.put (.transmission m)).transmissions[i]? =
      if m.id = i then some m else t.transmissions[i]? := by
  simp only [put, ExtTreeMap.getElem?_insert, Std.compare_eq_iff_eq]

theorem transmissions_put_of_ne {t : Tables} {r : Record} (hr : ∀ m, r ≠ .transmission m) :
    (t.put r).transmissions = t.transmissions := by
  cases r with
  | vector v => simp only [put, putVector, transmissions_link]
  | transmission m => exact absurd rfl (hr m)
  | _ => rfl

/-! ## What waits -/

section Waiting

variable {t : Tables} {n : Node} (hkeyed : t.Keyed)

/-- The transmissions that wait for the node `n`. -/
def waiting (t : Tables) (n : Node) : List Transmission :=
  t.selectTransmissions { destination := some n.id, pendingOnly := true }

include hkeyed

/-- The transmissions in `waiting n` are stored, addressed to `n`, and not received. -/
theorem mem_waiting {m : Transmission} : m ∈ t.waiting n ↔
    t.transmissions[m.id]? = some m ∧ m.destination = n.id ∧ m.isPending := by
  rw [waiting, mem_selectTransmissions fun _ _ hm => hkeyed.transmission_id hm]
  simp [TransmissionQuery.matches]

theorem pairwise_waiting : (t.waiting n).Pairwise fun m m' => m.chronological m' = .lt :=
  pairwise_selectTransmissions (fun _ _ hm => hkeyed.transmission_id hm) _

/-- Each transmission waits once. -/
theorem nodup_waiting : ((t.waiting n).map (·.id)).Nodup := by
  have hrows : ((rows t.transmissions).map (·.id)).Nodup := rows_nodup fun i m hi =>
    hkeyed.transmission_id hi
  rw [waiting, selectTransmissions, ((sort_perm _ _).map _).nodup_iff]
  exact hrows.sublist (List.filter_sublist.map _)

end Waiting

/-! ## What was received -/

/-- The transmissions that were received in `t` are those of `deliveries`, each of which was made
once. -/
structure Received (deliveries : List Delivery) (t : Tables) : Prop where
  stored : ∀ d ∈ deliveries, t.transmissions[d.transmission.id]? = some d.transmission
  marked : ∀ d ∈ deliveries, d.transmission.isPending = false
  brings : ∀ d ∈ deliveries, d.info.id = d.transmission.info
  complete : ∀ (i : TransmissionId) m, t.transmissions[i]? = some m → m.isPending = false →
    ∃ d ∈ deliveries, d.transmission = m
  once : (deliveries.map (·.transmission.id)).Nodup

theorem received_empty : ({} : Tables).Received [] where
  stored _ hd := by cases hd
  marked _ hd := by cases hd
  brings _ hd := by cases hd
  complete i m hm := by simp at hm
  once := List.nodup_nil

namespace Received

variable {deliveries : List Delivery} {t : Tables} (h : t.Received deliveries)
include h

theorem congr {u : Tables} (hu : u.transmissions = t.transmissions) : u.Received deliveries where
  stored := by rw [hu]; exact h.stored
  marked := h.marked
  brings := h.brings
  complete := by rw [hu]; exact h.complete
  once := h.once

/-- To store a new transmission `m` that is pending is not to receive. -/
theorem send {m : Transmission} (hm : m.isPending) (hnew : t.transmissions[m.id]? = none) :
    (t.put (.transmission m)).Received deliveries where
  stored d hd := by
    have hold := h.stored d hd
    rw [transmissions_put]
    by_cases hk : m.id = d.transmission.id
    · rw [← hk, hnew] at hold
      cases hold
    · rw [if_neg hk]
      exact hold
  marked := h.marked
  brings := h.brings
  complete i m' hm' hmarked := by
    rw [transmissions_put] at hm'
    by_cases hk : m.id = i
    · rw [if_pos hk] at hm'
      cases hm'
      rw [hm] at hmarked
      cases hmarked
    · rw [if_neg hk] at hm'
      exact h.complete i m' hm' hmarked
  once := h.once

/-- To mark the pending transmission `m` is to receive it. -/
theorem deliver {m : Transmission} (hm : t.transmissions[m.id]? = some m) (hp : m.isPending)
    (now : Timestamp) {i : Info} (hi : i.id = m.info) :
    (t.put (.transmission (m.markReceived now))).Received
      (deliveries ++ [⟨m.markReceived now, i⟩]) := by
  have hne : ∀ d ∈ deliveries, d.transmission.id ≠ m.id := by
    intro d hd hid
    have hold := h.stored d hd
    rw [hid, hm] at hold
    cases hold
    rw [h.marked d hd] at hp
    cases hp
  have hput : ∀ j : TransmissionId, (t.put (.transmission (m.markReceived now))).transmissions[j]? =
      if m.id = j then some (m.markReceived now) else t.transmissions[j]? :=
    fun j => transmissions_put
  refine ⟨?_, ?_, ?_, ?_, ?_⟩
  · refine List.forall_mem_append.2 ⟨?_, List.forall_mem_singleton.2 ?_⟩
    · intro d hd
      rw [hput, if_neg (hne d hd).symm]
      exact h.stored d hd
    · rw [hput]
      exact if_pos rfl
  · exact List.forall_mem_append.2 ⟨h.marked, List.forall_mem_singleton.2 rfl⟩
  · exact List.forall_mem_append.2 ⟨h.brings, List.forall_mem_singleton.2 hi⟩
  · intro j m' hm' hmarked
    rw [hput] at hm'
    by_cases hk : m.id = j
    · rw [if_pos hk] at hm'
      exact ⟨_, List.mem_append_right _ (.head _), Option.some.inj hm'⟩
    · rw [if_neg hk] at hm'
      obtain ⟨d, hd, rfl⟩ := h.complete j m' hm' hmarked
      exact ⟨d, List.mem_append_left _ hd, rfl⟩
  · rw [List.map_append, List.nodup_append]
    refine ⟨h.once, List.pairwise_singleton _ _, ?_⟩
    intro a ha b hb
    obtain ⟨d, hd, rfl⟩ := List.mem_map.1 ha
    rw [List.mem_singleton.1 hb]
    exact hne d hd

end Received

end Tables

/-! ## Transactions that receive -/

/-- Since a transaction began with `start`, it received what it handed over in `own`; no other
transmission that was there has it touched. -/
structure Transaction.Receiving (start : Tables) (before own : List Delivery) (tx : Transaction) :
    Prop where
  received : tx.view.Received (before ++ own)
  written : ∀ d ∈ own, .transmission d.transmission.id ∈ tx.writes
  others : ∀ i : TransmissionId, .transmission i ∈ tx.writes →
    start.transmissions[i]? = none ∨ ∃ d ∈ own, d.transmission.id = i
  le : start ≤ tx.view

namespace Transaction.Receiving

variable {start : Tables} {before own : List Delivery} {tx tx' : Transaction}

/-- A transaction that has written nothing has received nothing. -/
theorem refl (h : tx.view.Received before) (hw : tx.writes = []) :
    tx.Receiving tx.view before [] where
  received := by rw [List.append_nil]; exact h
  written _ hd := by cases hd
  others i hi := by rw [hw] at hi; cases hi
  le := Tables.le_refl _

/-- What is not there now was not there when the transaction began. -/
theorem start_eq_none (h : tx.Receiving start before own) {i : TransmissionId}
    (hi : tx.view.transmissions[i]? = none) : start.transmissions[i]? = none := by
  cases hs : start.transmissions[i]? with
  | none => rfl
  | some m =>
    obtain ⟨r, hr, -⟩ := h.le (.transmission i) _ (Tables.find?_transmission.2 hs)
    rw [Tables.find?, hi] at hr
    cases hr

/-- A request `r` that only sends receives nothing. -/
theorem after (h : tx.Receiving start before own) {r : Request} (hr : r.SendsOnly) :
    (r.after tx).Receiving start before own where
  received := by
    rw [r.view_after]
    cases hw : r.writes tx with
    | none => exact h.received
    | some s =>
      by_cases hs : ∃ m, s = .transmission m
      · obtain ⟨m, rfl⟩ := hs
        obtain ⟨hpending, hnew⟩ := hr.of_writes hw
        exact h.received.send hpending (Option.map_eq_none_iff.1 hnew)
      · exact h.received.congr (Tables.transmissions_put_of_ne fun m hm => hs ⟨m, hm⟩)
  written d hd := (r.mem_writes_after tx).2 (.inl (h.written d hd))
  others i hi := by
    rcases (r.mem_writes_after tx).1 hi with hi | hi
    · exact h.others i hi
    · obtain ⟨s, hw, hs⟩ := Option.map_eq_some_iff.1 hi
      cases s with
      | transmission m =>
        cases hs
        obtain ⟨-, hnew⟩ := hr.of_writes hw
        exact .inl (h.start_eq_none (Option.map_eq_none_iff.1 hnew))
      | _ => cases hs
  le := Tables.le_trans h.le (Becomes.after hr tx).le_view

/-- Requests of `SendsOnly` receive nothing. -/
theorem becomes (h : tx.Receiving start before own) (hb : tx.Becomes Request.SendsOnly tx') :
    tx'.Receiving start before own := by
  apply hb.keeps (I := fun t => t.Receiving start before own)
  · intro r t hr ht
    exact ht.after hr
  · exact h

/-- To mark the pending transmission `m` and to look up its info is to receive it. -/
theorem deliver (h : tx.Receiving start before own) {m : Transmission}
    (hm : tx.view.transmissions[m.id]? = some m) (hp : m.isPending) (now : Timestamp) {i : Info}
    (hi : i.id = m.info) :
    ((tx.store (.transmission (m.markReceived now))).noteRead (.info m.info)).Receiving start before
      (own ++ [⟨m.markReceived now, i⟩]) where
  received := by
    rw [← List.append_assoc]
    exact h.received.deliver hm hp now hi
  written := by
    refine List.forall_mem_append.2 ⟨?_, List.forall_mem_singleton.2 ?_⟩
    · intro d hd
      exact mem_writes_store.2 (.inr (h.written d hd))
    · exact mem_writes_store.2 (.inl rfl)
  others j hj := by
    rcases mem_writes_store.1 hj with hj | hj
    · cases hj
      exact .inr ⟨_, List.mem_append_right _ (.head _), rfl⟩
    · exact (h.others j hj).imp_right fun ⟨d, hd, he⟩ => ⟨d, List.mem_append_left _ hd, he⟩
  le := by
    apply Tables.le_trans h.le
    apply Tables.le_put
    intro old hold
    have hsame := (Tables.find?_transmission.2 hm).symm.trans hold
    cases hsame
    exact ⟨rfl, rfl⟩

end Transaction.Receiving

/-! ## The first half of a call -/

namespace Op

/-- If `x` succeeds, then `f` starts where `x` ended. -/
theorem bind_of_ok {σ α β : Type} {x : EStateM Error σ α} {f : α → EStateM Error σ β} {s s' : σ}
    {a : α} (h : x s = .ok a s') : (x >>= f) s = f a s' := by
  change EStateM.bind x f s = f a s'
  rw [EStateM.bind, h]

/-- If `x` fails, then `f` is not run. -/
theorem bind_of_error {σ α β : Type} {x : EStateM Error σ α} {f : α → EStateM Error σ β}
    {s s' : σ} {e : Error} (h : x s = .error e s') : (x >>= f) s = .error e s' := by
  change EStateM.bind x f s = .error e s'
  rw [EStateM.bind, h]

/-- An answer that `f` puts in another form changes nothing. -/
theorem final_map {σ α β : Type} (x : EStateM Error σ α) (f : α → β) (s : σ) :
    final ((x >>= fun v => pure (f v)) s) = final (x s) := by
  change final (EStateM.bind x _ s) = _
  rw [EStateM.bind]
  cases x s <;> rfl

theorem minting_apply {α : Type} (a : Minting α) (s : Scene) :
    (liftM a : Op α) s = .ok (a s.mint).1 { s with mint := (a s.mint).2 } := rfl

theorem access_of_ok {α : Type} {a : Access α} {s : Scene} {v : α} {tx : Transaction}
    (h : a s.tx = .ok v tx) : (liftM a : Op α) s = .ok v { s with tx } := by
  change Op.access a s = _
  rw [Op.access, h]

theorem access_of_error {α : Type} {a : Access α} {s : Scene} {e : Error} {tx : Transaction}
    (h : a s.tx = .error e tx) : (liftM a : Op α) s = .error e { s with tx } := by
  change Op.access a s = _
  rw [Op.access, h]

/-- To use the transaction by `a` leaves the mint alone. -/
theorem final_access {α : Type} (a : Access α) (s : Scene) :
    final ((liftM a : Op α) s) = { s with tx := final (a s.tx) } := by
  change final (Op.access a s) = _
  rw [Op.access]
  cases a s.tx <;> rfl

end Op

/-- A stored transmission `m` may be marked as received. -/
theorem Revision.accept_markReceived {t : Tables} {m : Transmission}
    (hm : t.transmissions[m.id]? = some m) (now : Timestamp) :
    (Revision.transmission (m.markReceived now)).accept t = .ok () := by
  simp [accept, acceptTransmission, Transmission.markReceived, hm]

namespace Node

open Op

/-- A stored transmission `m` whose info is there is delivered, if the transaction may write. -/
theorem deliver_apply {tx : Transaction} {m : Transmission} {i : Info}
    (hm : tx.view.transmissions[m.id]? = some m) (hi : tx.view.infos[m.info]? = some i)
    (hmode : tx.mode = .readWrite) (mint : Mint) :
    deliver m { tx, mint } =
      .ok ⟨m.markReceived (Minting.now mint).1, i⟩
        { tx := (tx.store (.transmission (m.markReceived (Minting.now mint).1))).noteRead
            (.info m.info)
          mint := (Minting.now mint).2 } := by
  have hrevise (now : Timestamp) : Access.revise (.transmission (m.markReceived now)) tx =
      .ok () (tx.store (.transmission (m.markReceived now))) :=
    Access.revise_of_accept (Revision.accept_markReceived hm now) hmode
  have hinfos (now : Timestamp) :
      (tx.store (.transmission (m.markReceived now))).view.infos[m.info]? = some i := hi
  have hrequire (now : Timestamp) :
      Access.requireInfo m.info (tx.store (.transmission (m.markReceived now))) =
        .ok i ((tx.store (.transmission (m.markReceived now))).noteRead (.info m.info)) := by
    rw [Access.requireInfo, Access.require_apply, hinfos]
  refine (bind_of_ok (minting_apply Minting.now { tx, mint })).trans ?_
  exact (bind_of_ok (access_of_ok (hrevise _))).trans (bind_of_ok (access_of_ok (hrequire _)))

/-- To `receivePending` is to deliver one transmission that waits after the other. -/
theorem receivePending_apply (n : Node) (tx : Transaction) (mint : Mint) :
    n.receivePending { tx, mint } =
      (tx.view.waiting n).mapM deliver { tx := tx.noteScan .transmission, mint } := by
  have hquery : n.pendingTransmissions tx =
      .ok (tx.view.waiting n) (tx.noteScan .transmission) := Access.transmissions_apply _ tx
  rw [receivePending, bind_of_ok (access_of_ok hquery)]

end Node

namespace Transaction.Receiving

variable {start : Tables} {before own : List Delivery} {tx : Transaction}

/-- The pending transmissions in `l` are all delivered. The induction is on what is still to be
delivered: it is pending, and untouched by what was delivered already. -/
theorem mapM_deliver (l : List Transmission) (h : tx.Receiving start before own)
    (hmode : tx.mode = .readWrite) (hclosed : tx.view.Closed) (hkeyed : tx.view.Keyed)
    (hl : ∀ m ∈ l, tx.view.transmissions[m.id]? = some m ∧ m.isPending)
    (hnodup : (l.map (·.id)).Nodup) (mint : Mint) :
    ∃ deliveries scene, l.mapM Node.deliver { tx, mint } = .ok deliveries scene ∧
      scene.tx.Receiving start before (own ++ deliveries) := by
  induction l generalizing tx own mint with
  | nil => exact ⟨[], _, rfl, by rw [List.append_nil]; exact h⟩
  | cons m l ih =>
    obtain ⟨⟨hm, hp⟩, hl⟩ := List.forall_mem_cons.1 hl
    obtain ⟨hnew, hnodup⟩ := List.nodup_cons.1 hnodup
    have hinfo := hclosed _ _ (Tables.find?_transmission.2 hm) (.info m.info) (.head _)
    obtain ⟨r, hr⟩ := Option.isSome_iff_exists.1 hinfo
    obtain ⟨i, hi, rfl⟩ := Option.map_eq_some_iff.1 hr
    have hbrings : i.id = m.info := Key.info.inj (hkeyed _ _ hr)
    have happly := Node.deliver_apply hm hi hmode mint
    have hbecomes := Node.asks_deliver m { tx, mint }
    rw [happly] at hbecomes
    have hstep := h.deliver hm hp (Minting.now mint).1 hbrings
    have hrest : ∀ m' ∈ l, (tx.view.put (.transmission (m.markReceived
        (Minting.now mint).1))).transmissions[m'.id]? = some m' ∧ m'.isPending := by
      intro m' hm'
      obtain ⟨hstored, hpending⟩ := hl m' hm'
      have hne : m.id ≠ m'.id := fun he => hnew (List.mem_map.2 ⟨m', hm', he.symm⟩)
      refine ⟨?_, hpending⟩
      rw [← hstored]
      exact Tables.transmissions_put.trans (if_neg hne)
    obtain ⟨deliveries, scene, hmap, hend⟩ := ih hstep (hbecomes.mode_eq.trans hmode)
      (hbecomes.closed hclosed) (hbecomes.keyed hkeyed) hrest hnodup (Minting.now mint).2
    refine ⟨_ :: deliveries, scene, ?_, by rw [List.append_cons]; exact hend⟩
    rw [List.mapM_cons]
    exact (Op.bind_of_ok happly).trans (Op.bind_of_ok hmap)

/-- In a transaction that may write, `receivePending` never fails, and it receives exactly what it
answers. -/
theorem receivePending (h : tx.Receiving start before own) (hmode : tx.mode = .readWrite)
    (hclosed : tx.view.Closed) (hkeyed : tx.view.Keyed) (n : Node) (mint : Mint) :
    ∃ deliveries scene, n.receivePending { tx, mint } = .ok deliveries scene ∧
      scene.tx.Receiving start before (own ++ deliveries) ∧ .transmission ∈ scene.tx.scans := by
  have hscan : (tx.noteScan .transmission).Receiving start before own :=
    ⟨h.received, h.written, h.others, h.le⟩
  have hwaiting : ∀ m ∈ tx.view.waiting n,
      tx.view.transmissions[m.id]? = some m ∧ m.isPending := by
    intro m hm
    obtain ⟨hstored, -, hpending⟩ := (Tables.mem_waiting hkeyed).1 hm
    exact ⟨hstored, hpending⟩
  obtain ⟨deliveries, scene, hmap, hend⟩ := hscan.mapM_deliver _ hmode hclosed hkeyed hwaiting
    (Tables.nodup_waiting hkeyed) mint
  refine ⟨deliveries, scene, ?_, hend, ?_⟩
  · rw [Node.receivePending_apply, hmap]
  · have hbecomes := Asks.mapM (P := AnyRequest) Node.asks_deliver (tx.view.waiting n)
      { tx := tx.noteScan .transmission, mint }
    rw [hmap] at hbecomes
    exact hbecomes.mem_scans (Transaction.mem_scans_noteScan.2 (.inl rfl))

end Transaction.Receiving

end Propagation
