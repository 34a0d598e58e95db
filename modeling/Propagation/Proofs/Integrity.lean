import Propagation.Proofs.Delivery
import Propagation.Proofs.History
import Propagation.Proofs.Looking
import Mathlib.Data.List.Forall2

/-!
# Referential integrity

What a record refers to is there and stands under its own identifier, whatever was stored, by
whom, and in which order it was committed. To follow a reference from a record of a view therefore
never fails: the neighbours of a node, the info of a transmission that is received, the origin of a
transmission and the network of a vector are all found.

## Main definitions

* `Tables.Intact`: all references of each kind of record lead somewhere.
* `Node.Delivers`: transmissions were delivered one after the other.
* `Transaction.Follows`: to follow a reference never fails.

## Main statements

* `Tables.intact`: tables that are closed and keyed are intact.
* `Node.answers_neighbours`: the neighbours of a node, in closed tables.
* `Node.mapM_deliver_delivers`: different transmissions whose infos are there are delivered.
* `Node.receivePending_cases`: to receive fails only where nothing can be written.
* `World.Reachable.referential_integrity`: the committed tables and all views are intact.
-/

namespace Propagation

open Std (ExtTreeMap)

namespace Tables

variable {t : Tables}

/-! ## Intact tables -/

theorem has_network {i : NetworkId} : t.has (.network i) ↔ i ∈ t.networks := by
  simp [has, find?]

theorem has_node {i : NodeId} : t.has (.node i) ↔ i ∈ t.nodes := by
  simp [has, find?]

theorem has_info {i : InfoId} : t.has (.info i) ↔ i ∈ t.infos := by
  simp [has, find?]

/-- Every record of `t` stands under its own identifier, and what it refers to is there. -/
structure Intact (t : Tables) : Prop where
  network : ∀ (i : NetworkId) n, t.networks[i]? = some n → n.id = i
  node : ∀ (i : NodeId) n, t.nodes[i]? = some n →
    n.id = i ∧ ∀ network, n.network = some network → network ∈ t.networks
  vector : ∀ (i : VectorId) v, t.vectors[i]? = some v →
    v.id = i ∧ v.origin ∈ t.nodes ∧ v.destination ∈ t.nodes
  info : ∀ (i : InfoId) m, t.infos[i]? = some m → m.id = i ∧ m.origin ∈ t.nodes
  transmission : ∀ (i : TransmissionId) m, t.transmissions[i]? = some m →
    m.id = i ∧ m.info ∈ t.infos ∧ m.destination ∈ t.nodes
  transformation : ∀ (i : TransformationId) m, t.transformations[i]? = some m →
    m.id = i ∧ m.node ∈ t.nodes ∧ m.infoIn ∈ t.infos ∧ m.infoOut ∈ t.infos

/-- Tables that are `Keyed` and `Closed` are intact. -/
theorem intact (hk : t.Keyed) (hc : t.Closed) : t.Intact where
  network i n h := Key.network.inj (hk _ _ (find?_network.2 h))
  node i n h := by
    have hfind := find?_node.2 h
    refine ⟨Key.node.inj (hk _ _ hfind), ?_⟩
    intro network hn
    exact has_network.1 (hc _ _ hfind _ (by simp [Record.references, hn]))
  vector i v h := by
    have hfind := find?_vector.2 h
    refine ⟨Key.vector.inj (hk _ _ hfind), ?_, ?_⟩
    · exact has_node.1 (hc _ _ hfind _ (.head _))
    · exact has_node.1 (hc _ _ hfind _ (.tail _ (.head _)))
  info i m h := by
    have hfind := find?_info.2 h
    exact ⟨Key.info.inj (hk _ _ hfind), has_node.1 (hc _ _ hfind _ (.head _))⟩
  transmission i m h := by
    have hfind := find?_transmission.2 h
    refine ⟨Key.transmission.inj (hk _ _ hfind), ?_, ?_⟩
    · exact has_info.1 (hc _ _ hfind _ (.head _))
    · exact has_node.1 (hc _ _ hfind _ (.tail _ (.head _)))
  transformation i m h := by
    have hfind := find?_transformation.2 h
    refine ⟨Key.transformation.inj (hk _ _ hfind), ?_, ?_, ?_⟩
    · exact has_node.1 (hc _ _ hfind _ (.head _))
    · exact has_info.1 (hc _ _ hfind _ (.tail _ (.head _)))
    · exact has_info.1 (hc _ _ hfind _ (.tail _ (.tail _ (.head _))))

/-- What the query `q` for vectors finds is stored. -/
theorem stored_of_mem_selectVectors {q : VectorQuery} {v : Vector}
    (h : v ∈ t.selectVectors q) : ∃ i : VectorId, t.vectors[i]? = some v := by
  rw [selectVectors, mem_sort, List.mem_filter, List.mem_filterMap] at h
  obtain ⟨⟨i, -, hi⟩, -⟩ := h
  exact ⟨i, hi⟩

end Tables

/-! ## Following references -/

namespace Access

variable {tx : Transaction}

/-- What `f` finds under the key `k` is the answer of `require`. -/
theorem answers_require_of_some {α : Type} {k : Key} {f : Tables → Option α} {a : α}
    (h : f tx.view = some a) : (require k f).Answers tx (.ok a) := by
  have hrequire := answers_require k f tx
  rw [h] at hrequire
  exact hrequire

/-- Nodes whose identifiers are all there are all found. -/
theorem answers_mapM_requireNode {ids : List NodeId} (h : ∀ i ∈ ids, i ∈ tx.view.nodes) :
    (ids.mapM requireNode).Answers tx (.ok (ids.filterMap (tx.view.nodes[·]?))) := by
  induction ids generalizing tx with
  | nil => exact .pure [] tx
  | cons i ids ih =>
    obtain ⟨hi, hids⟩ := List.forall_mem_cons.1 h
    obtain ⟨n, hn⟩ := Option.isSome_iff_exists.1 (ExtTreeMap.isSome_getElem?_iff_mem.2 hi)
    rw [List.mapM_cons, List.filterMap_cons_some hn]
    refine (answers_require_of_some hn).bind_of_ok fun tx' hnoted => ?_
    rw [← hnoted.view_eq] at hids ⊢
    exact (ih hids).map (n :: ·)

end Access

/-- What stands in `l'` belongs to something in `l`, if the lists go along with each other. -/
theorem exists_of_forall₂ {α β : Type} {R : α → β → Prop} {l : List α} {l' : List β}
    (h : List.Forall₂ R l l') {b : β} (hb : b ∈ l') : ∃ a ∈ l, R a b := by
  induction h with
  | nil => cases hb
  | @cons a b' l l' hab _ ih =>
    rcases List.mem_cons.1 hb with rfl | hb
    · exact ⟨a, .head l, hab⟩
    · obtain ⟨a', ha', hr⟩ := ih hb
      exact ⟨a', .tail a ha', hr⟩

namespace Node

/-- The `neighbours` of a node are those that the vectors name, all of which are there. -/
theorem answers_neighbours {tx : Transaction} (ht : tx.view.Intact) (side : Side)
    (status : Option VectorStatus) (f : NodeFilter) (n : Node) :
    (n.neighbours side status f).Answers tx (.ok (((distinct (fun i => i)
      ((tx.view.selectVectors { side.query n.id with status }).map side.across)).filterMap
        (tx.view.nodes[·]?)).filter f.matches)) := by
  refine (Access.answers_vectors _ tx).bind_of_ok fun tx' hnoted => ?_
  rw [← hnoted.view_eq]
  refine (Access.answers_mapM_requireNode ?_).map (List.filter f.matches)
  intro i hi
  obtain ⟨v, hv, rfl⟩ := List.mem_map.1 ((distinct_sublist _ _).mem hi)
  obtain ⟨j, hj⟩ := Tables.stored_of_mem_selectVectors hv
  rw [hnoted.view_eq] at hj ⊢
  cases side with
  | outgoing => exact (ht.vector j v hj).2.2
  | incoming => exact (ht.vector j v hj).2.1

/-- The transmissions in `l` were delivered one after the other, at the times that the clock issued.
-/
structure Delivers (l : List Transmission) (s s' : Scene) (deliveries : List Delivery) :
    Prop where
  received : List.Forall₂ (fun m d => ∃ now, d.transmission = m.markReceived now ∧
    s.tx.view.infos[m.info]? = some d.info) l deliveries
  times : deliveries.map (·.transmission.receiveTime) =
    (s.mint.clock.issue l.length).1.map some
  mode : s'.tx.mode = .readWrite
  view : s'.tx.view = s.tx.view.putAll (deliveries.map (.transmission ·.transmission))
  mint : s'.mint = { s.mint with clock := (s.mint.clock.issue l.length).2 }

/-- The transmissions in `l`, which are different and whose infos are there, are all delivered, in a
transaction that may write. -/
theorem mapM_deliver_delivers (l : List Transmission) (tx : Transaction)
    (hmode : tx.mode = .readWrite)
    (hl : ∀ m ∈ l, tx.view.transmissions[m.id]? = some m ∧ m.info ∈ tx.view.infos)
    (hnodup : (l.map (·.id)).Nodup) (mint : Mint) :
    ∃ deliveries scene, l.mapM deliver { tx, mint } = .ok deliveries scene ∧
      Delivers l { tx, mint } scene deliveries := by
  induction l generalizing tx mint with
  | nil => exact ⟨[], _, rfl, .nil, rfl, hmode, rfl, rfl⟩
  | cons m l ih =>
    obtain ⟨⟨hm, hinfo⟩, hl⟩ := List.forall_mem_cons.1 hl
    obtain ⟨hnew, hnodup⟩ := List.nodup_cons.1 hnodup
    obtain ⟨i, hi⟩ := Option.isSome_iff_exists.1 (ExtTreeMap.isSome_getElem?_iff_mem.2 hinfo)
    have hfirst := deliver_apply hm hi hmode mint
    -- to deliver a transmission leaves the infos and all other transmissions as they are
    have hrest : ∀ m' ∈ l, (tx.view.put (.transmission (m.markReceived
        (Minting.now mint).1))).transmissions[m'.id]? = some m' ∧ m'.info ∈ tx.view.infos := by
      intro m' hm'
      obtain ⟨hstored, hinfo⟩ := hl m' hm'
      have hne : m.id ≠ m'.id := fun he => hnew (List.mem_map.2 ⟨m', hm', he.symm⟩)
      refine ⟨?_, hinfo⟩
      rw [← hstored]
      exact Tables.transmissions_put.trans (if_neg hne)
    obtain ⟨deliveries, scene, hlater, hdelivers⟩ := ih ((tx.store (.transmission
      (m.markReceived (Minting.now mint).1))).noteRead (.info m.info)) hmode hrest hnodup
      (Minting.now mint).2
    refine ⟨⟨m.markReceived (Minting.now mint).1, i⟩ :: deliveries, scene, ?_,
      .cons ⟨_, rfl, hi⟩ hdelivers.received, ?_, hdelivers.mode, hdelivers.view, hdelivers.mint⟩
    · rw [List.mapM_cons, Op.bind_of_ok hfirst, Op.bind_of_ok hlater]
      rfl
    · rw [List.map_cons, hdelivers.times]
      rfl

namespace Delivers

variable {l : List Transmission} {s s' : Scene} {deliveries : List Delivery}
  (h : Delivers l s s' deliveries)
include h

theorem keeps {k : Key} (hk : s.tx.view.has k) : s'.tx.view.has k := by
  rw [h.view]
  exact (Tables.has_putAll _ _).2 (.inr hk)

theorem ids_eq : l.map (·.id) = deliveries.map (·.transmission.id) := by
  rw [← List.forall₂_eq_eq_eq, List.forall₂_map_left_iff, List.forall₂_map_right_iff]
  refine h.received.imp fun m d hd => ?_
  obtain ⟨now, hd, -⟩ := hd
  rw [hd]
  rfl

/-- The infos of `deliveries` are there. -/
theorem has_info (hkeyed : s.tx.view.Keyed) {d : Delivery} (hd : d ∈ deliveries) :
    s'.tx.view.has (.info d.info.id) := by
  obtain ⟨m, -, -, -, hstored⟩ := exists_of_forall₂ h.received hd
  have hfind := Tables.find?_info.2 hstored
  have hid : d.info.id = m.info := Key.info.inj (hkeyed _ _ hfind)
  refine h.keeps ?_
  rw [hid, Tables.has, hfind]
  rfl

/-- If anything that waits for the node `n` was delivered, then `n` is there. -/
theorem has_node {n : Node} (hkeyed : s.tx.view.Keyed) (hclosed : s.tx.view.Closed)
    (hl : ∀ m ∈ l, m ∈ s.tx.view.waiting n) (hne : deliveries ≠ []) :
    s'.tx.view.has (.node n.id) := by
  obtain ⟨d, hd⟩ := List.exists_mem_of_ne_nil deliveries hne
  obtain ⟨m, hm, -⟩ := exists_of_forall₂ h.received hd
  obtain ⟨hstored, hdestination, -⟩ := (Tables.mem_waiting hkeyed).1 (hl m hm)
  have hmem := ((Tables.intact hkeyed hclosed).transmission _ m hstored).2.2
  exact h.keeps (Tables.has_node.2 (hdestination ▸ hmem))

end Delivers

/-- In a transaction that may only read, `deliver` fails on a stored transmission. -/
theorem deliver_readOnly (tx : Transaction) {m : Transmission}
    (hm : tx.view.transmissions[m.id]? = some m) (hmode : tx.mode = .readOnly) (mint : Mint) :
    deliver m { tx, mint } = .error (.readOnly tx.id) { tx, mint := (Minting.now mint).2 } := by
  have hrevise (now : Timestamp) : Access.revise (.transmission (m.markReceived now)) tx =
      .error (.readOnly tx.id) tx := by
    rw [Access.revise_apply, Revision.accept_markReceived hm, Access.recordIf_apply,
      Access.record_apply, hmode]
  refine (Op.bind_of_ok (Op.minting_apply Minting.now { tx, mint })).trans ?_
  exact Op.bind_of_error (Op.access_of_error (hrevise _))

/-- In a transaction that may write, `receivePending` delivers all that waits. -/
theorem exists_receivePending {tx : Transaction} (hkeyed : tx.view.Keyed)
    (hclosed : tx.view.Closed) (hmode : tx.mode = .readWrite) (n : Node) (mint : Mint) :
    ∃ deliveries scene, n.receivePending { tx, mint } = .ok deliveries scene ∧
      Delivers (tx.view.waiting n) { tx := tx.noteScan .transmission, mint } scene
        deliveries := by
  rw [receivePending_apply]
  refine mapM_deliver_delivers _ (tx.noteScan .transmission) hmode (fun m hm => ?_)
    (Tables.nodup_waiting hkeyed) mint
  have hstored := ((Tables.mem_waiting hkeyed).1 hm).1
  exact ⟨hstored, ((Tables.intact hkeyed hclosed).transmission _ m hstored).2.1⟩

/-- To `receivePending` never misses an info. It fails only in a transaction that may only read, and
then for this reason. -/
theorem receivePending_cases {tx : Transaction} (hkeyed : tx.view.Keyed)
    (hclosed : tx.view.Closed) (n : Node) (mint : Mint) :
    (∃ deliveries, outcome (n.receivePending { tx, mint }) = .ok deliveries ∧
      ∀ d ∈ deliveries, tx.view.infos[d.transmission.info]? = some d.info) ∨
    tx.mode = .readOnly ∧ outcome (n.receivePending { tx, mint }) = .error (.readOnly tx.id) := by
  cases hmode : tx.mode with
  | readWrite =>
    obtain ⟨deliveries, scene, hrun, hdelivers⟩ :=
      exists_receivePending hkeyed hclosed hmode n mint
    refine .inl ⟨deliveries, by rw [hrun]; rfl, fun d hd => ?_⟩
    obtain ⟨m, -, now, hmarked, hinfo⟩ := exists_of_forall₂ hdelivers.received hd
    rw [hmarked]
    exact hinfo
  | readOnly =>
    rw [receivePending_apply]
    cases hpending : tx.view.waiting n with
    | nil => exact .inl ⟨[], rfl, fun d hd => by cases hd⟩
    | cons m rest =>
      have hfirst : m ∈ tx.view.waiting n := hpending ▸ List.mem_cons_self
      have hm := ((Tables.mem_waiting hkeyed).1 hfirst).1
      have hdeliver := deliver_readOnly (tx.noteScan .transmission) hm hmode mint
      refine .inr ⟨rfl, ?_⟩
      rw [List.mapM_cons, Op.bind_of_error hdeliver]
      rfl

end Node

/-- To follow a reference from a record of the view of `tx` never fails. Only to receive may fail,
in a transaction that may only read, and not for want of an info. -/
structure Transaction.Follows (tx : Transaction) : Prop where
  neighbours : ∀ side status f (n : Node),
    ∃ nodes, outcome (n.neighbours side status f tx) = .ok nodes
  receive : ∀ (n : Node) mint,
    (∃ deliveries, outcome (n.receivePending { tx, mint }) = .ok deliveries ∧
      ∀ d ∈ deliveries, tx.view.infos[d.transmission.info]? = some d.info) ∨
    tx.mode = .readOnly ∧ outcome (n.receivePending { tx, mint }) = .error (.readOnly tx.id)
  origin : ∀ (i : TransmissionId) m, tx.view.transmissions[i]? = some m →
    ∃ info, tx.view.infos[m.info]? = some info ∧ outcome (m.origin tx) = .ok info.origin
  network : ∀ (i : VectorId) v, tx.view.vectors[i]? = some v →
    ∃ n, tx.view.nodes[v.origin]? = some n ∧ outcome (v.network tx) = .ok n.network

/-- In a view that is keyed and closed, references can be followed. -/
theorem Transaction.follows {tx : Transaction} (hkeyed : tx.view.Keyed)
    (hclosed : tx.view.Closed) : tx.Follows where
  neighbours side status f n :=
    ⟨_, (Node.answers_neighbours (Tables.intact hkeyed hclosed) side status f n).outcome⟩
  receive := Node.receivePending_cases hkeyed hclosed
  origin i m hm := by
    have hmem := ((Tables.intact hkeyed hclosed).transmission i m hm).2.1
    obtain ⟨info, hinfo⟩ := Option.isSome_iff_exists.1 (ExtTreeMap.isSome_getElem?_iff_mem.2 hmem)
    exact ⟨info, hinfo, ((Access.answers_require_of_some hinfo).map Info.origin).outcome⟩
  network i v hv := by
    have hmem := ((Tables.intact hkeyed hclosed).vector i v hv).2.1
    obtain ⟨n, hn⟩ := Option.isSome_iff_exists.1 (ExtTreeMap.isSome_getElem?_iff_mem.2 hmem)
    exact ⟨n, hn, ((Access.answers_require_of_some hn).map Node.network).outcome⟩

namespace World

variable {α : Type} {w : World α}

/-- In every world that can come about, the committed tables are intact, and so is the view of
every open transaction, from which references can therefore be followed. -/
theorem Reachable.referential_integrity (h : w.Reachable) :
    w.store.committed.tables.Intact ∧
      ∀ name s, w.sessions name = some s → s.tx.view.Intact ∧ s.tx.Follows := by
  refine ⟨Tables.intact h.sound.keyed_committed h.closed.committed, fun name s hs => ?_⟩
  have hkeyed := (h.sound.sessions name s hs).keyed_view
  have hclosed := h.closed_view hs
  exact ⟨Tables.intact hkeyed hclosed, Transaction.follows hkeyed hclosed⟩

/-- While a transaction sends from a node that was stored after the first transaction began, the
first one commits a node of its own. -/
def parcel : List Event :=
  [.begin 0 .readWrite .readCommitted, .begin 1 .readWrite .serializable,
    .ask 1 (.insert (.node (.numbered 1))), .commit 1, .begin 2 .readWrite .serializable,
    .ask 2 (.insert (.node (.numbered 2))), .ask 2 (.insert (.vector (.numbered 3 1 2))),
    .ask 2 (.insert (.info (.numbered 4 1))), .ask 2 (.insert (.transmission letter)),
    .ask 0 (.insert (.node (.numbered 0))), .commit 0]
where
  letter : Transmission :=
    { id := ⟨5⟩, info := ⟨4⟩, destination := ⟨2⟩, transmitTime := .ofMoment .first }

/-- The committed tables have both nodes, and the sender of the transmission is found. -/
theorem referential_integrity_parcel : ∃ s, (run .still parcel).sessions 2 = some s ∧
    (run .still parcel).store.committed.tables.Intact ∧
    (run .still parcel).store.committed.tables.has (.node ⟨0⟩) ∧
    (run .still parcel).store.committed.tables.has (.node ⟨1⟩) ∧
    outcome (parcel.letter.origin s.tx) = .ok ⟨1⟩ ∧
    ∃ nodes, outcome (Node.predecessors .any (.numbered 2) s.tx) = .ok nodes := by
  have hs : (run .still parcel).sessions 2 = some _ := rfl
  obtain ⟨hcommitted, hopen⟩ := Reachable.referential_integrity (reachable_run .still parcel)
  obtain ⟨-, hfollows⟩ := hopen 2 _ hs
  obtain ⟨info, hinfo, horigin⟩ := hfollows.origin ⟨5⟩ parcel.letter rfl
  cases hinfo
  exact ⟨_, hs, hcommitted, rfl, rfl, horigin, hfollows.neighbours .incoming none .any _⟩

end World

end Propagation
