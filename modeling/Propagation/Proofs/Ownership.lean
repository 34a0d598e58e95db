import Propagation.Proofs.Integrity
import Propagation.Proofs.Index
import Propagation.Network.Dossier

/-!
# To whom records belong

Every record other than a network belongs to a node: a node to itself, a vector to its origin, an
info to its author, a transmission to the author of what it delivers, a transformation to the node
that performed it. The dossier of a network holds what belongs to the nodes of the network. A record
therefore is in one dossier if its node is in a network, and in none if it is not.

Three lists of a dossier are put together node by node. Nothing is lost or doubled in them because
the nodes have different identifiers and every record belongs to one of them at most.

## Main definitions

* `Tables.owner?`, `Tables.home?`: the node that a record belongs to, and the network of that node.
* `Tables.owned`: all records that belong to nodes.
* `Dossier.Exact`: a dossier holds what it should hold, each record once.

## Main statements

* `Tables.flatMap_owned`: what belongs to some nodes, put together node by node.
* `Network.answers_dossier`: what collecting a dossier answers.
* `Dossier.Exact.records_perm`: a dossier holds the records that are at home in its network.
* `World.Reachable.dossiers_partition`: the dossiers of a view share out its records.
-/

namespace Propagation

open Std (ExtTreeMap)

namespace Tables

variable {t : Tables}

/-- The node that a record belongs to. -/
def owner? (t : Tables) : Record → Option NodeId
  | .network _ => none
  | .node n => some n.id
  | .vector v => some v.origin
  | .info i => some i.origin
  | .transmission m => t.infos[m.info]?.map Info.origin
  | .transformation m => some m.node

/-- The network of the node that the record `r` belongs to. -/
def home? (t : Tables) (r : Record) : Option NetworkId :=
  (t.owner? r).bind fun owner => t.nodes[owner]?.bind Node.network

/-- All records in `t` that belong to nodes. -/
def owned (t : Tables) : List Record :=
  (rows t.nodes).map .node ++ (rows t.vectors).map .vector ++ (rows t.infos).map .info ++
    (rows t.transmissions).map .transmission ++ (rows t.transformations).map .transformation

theorem mem_rows_of_id {e : Entity} {ρ : Type} {table : ExtTreeMap (Id e) ρ} {id : ρ → Id e}
    (h : ∀ i r, table[i]? = some r → id r = i) {r : ρ} :
    r ∈ rows table ↔ table[id r]? = some r := by
  rw [mem_rows]
  constructor
  · rintro ⟨i, hi⟩
    rwa [h i r hi]
  · exact fun hr => ⟨_, hr⟩

/-- Whatever is stored and is not a network is among those in `owned`. -/
theorem mem_owned {r : Record} (hr : t.find? r.key = some r)
    (hnetwork : ∀ n, r ≠ .network n) : r ∈ t.owned := by
  have hmem : ∀ {e : Entity} {ρ : Type} {table : ExtTreeMap (Id e) ρ} {i : Id e} {a : ρ},
      table[i]? = some a → a ∈ rows table := fun ha => mem_rows.2 ⟨_, ha⟩
  cases r with
  | network n => exact absurd rfl (hnetwork n)
  | node n => simp [owned, hmem (find?_node.1 hr)]
  | vector v => simp [owned, hmem (find?_vector.1 hr)]
  | info i => simp [owned, hmem (find?_info.1 hr)]
  | transmission m => simp [owned, hmem (find?_transmission.1 hr)]
  | transformation m => simp [owned, hmem (find?_transformation.1 hr)]

/-- No record is in `owned` twice. -/
theorem nodup_owned (ht : t.Intact) : t.owned.Nodup := by
  have hnodup {e : Entity} {ρ : Type} {table : ExtTreeMap (Id e) ρ} {id : ρ → Id e}
      {kind : ρ → Record} (hkind : kind.Injective) (h : ∀ i a, table[i]? = some a → id a = i) :
      ((rows table).map kind).Nodup :=
    (List.Nodup.of_map _ (rows_nodup h)).map hkind
  have hnodes := hnodup (fun _ _ => Record.node.inj) fun i n h => (ht.node i n h).1
  have hvectors := hnodup (fun _ _ => Record.vector.inj) fun i v h => (ht.vector i v h).1
  have hinfos := hnodup (fun _ _ => Record.info.inj) fun i m h => (ht.info i m h).1
  have htransmissions :=
    hnodup (fun _ _ => Record.transmission.inj) fun i m h => (ht.transmission i m h).1
  have htransformations :=
    hnodup (fun _ _ => Record.transformation.inj) fun i m h => (ht.transformation i m h).1
  simp only [owned, List.nodup_append, List.mem_append, List.mem_map]
  refine ⟨⟨⟨⟨hnodes, hvectors, ?_⟩, hinfos, ?_⟩, htransmissions, ?_⟩, htransformations, ?_⟩ <;>
    aesop

/-! ## What belongs to nodes -/

/-- What belongs to some nodes, put together node by node, is what belongs to one of them by
`owner`. -/
theorem flatMap_owned {α : Type} {all : List α} (owner : α → Option NodeId)
    {select : NodeId → List α}
    (hselect : ∀ n, (select n).Perm (all.filter fun a => owner a = some n)) {nodes : List Node}
    (hnodes : (nodes.map (·.id)).Nodup) :
    (nodes.flatMap fun n => select n.id).Perm
      (all.filter fun a => ∃ n ∈ nodes, owner a = some n.id) := by
  induction nodes with
  | nil => simp
  | cons n nodes ih =>
    obtain ⟨hn, hnodes⟩ := List.nodup_cons.1 hnodes
    rw [List.flatMap_cons]
    refine ((hselect n.id).append (ih hnodes)).trans ?_
    -- What belongs to the first node does not belong to a later one.
    have hfirst : (all.filter fun a => owner a = some n.id) =
        (all.filter fun a => ∃ m ∈ n :: nodes, owner a = some m.id).filter
          fun a => owner a = some n.id := by
      rw [List.filter_filter]
      refine List.filter_congr fun a _ => ?_
      simp
      tauto
    have hrest : (all.filter fun a => ∃ m ∈ nodes, owner a = some m.id) =
        (all.filter fun a => ∃ m ∈ n :: nodes, owner a = some m.id).filter
          fun a => !decide (owner a = some n.id) := by
      rw [List.filter_filter]
      refine List.filter_congr fun a _ => ?_
      by_cases ha : owner a = some n.id
      · have hother : ∀ m ∈ nodes, n.id ≠ m.id :=
          fun m hm hid => hn (List.mem_map.2 ⟨m, hm, hid.symm⟩)
        simpa [ha] using hother
      · simp [ha]
    rw [hfirst, hrest]
    exact List.filter_append_perm _ _

/-- The dossier of the network `id`, read off the tables. -/
def dossier (t : Tables) (network : Network) (id : NetworkId) : Dossier :=
  let nodes := t.selectNodes { network := some id }
  { network, nodes
    vectors := t.selectVectors { network := some id }
    infos := nodes.flatMap fun n => t.selectInfos { origin := some n.id }
    transmissions := nodes.flatMap fun n => t.selectTransmissions { origin := some n.id }
    transformations := nodes.flatMap fun n => t.selectTransformations { node := some n.id } }

end Tables

namespace Access

theorem answers_nodes (q : NodeQuery) (tx : Transaction) :
    (nodes q).Answers tx (.ok (tx.view.selectNodes q)) := ⟨rfl, .scan .node tx⟩

theorem answers_transmissions (q : TransmissionQuery) (tx : Transaction) :
    (transmissions q).Answers tx (.ok (tx.view.selectTransmissions q)) :=
  ⟨by rw [transmissions_apply]; rfl, by rw [transmissions_apply]; exact .scans _ _ _ tx⟩

theorem answers_transformations (q : TransformationQuery) (tx : Transaction) :
    (transformations q).Answers tx (.ok (tx.view.selectTransformations q)) :=
  ⟨rfl, .scan .transformation tx⟩

end Access

namespace Dossier

/-- The dossier `d` with more infos, transmissions and transformations. -/
def extend (d : Dossier) (infos : List Info) (transmissions : List Transmission)
    (transformations : List Transformation) : Dossier :=
  { d with
    infos := d.infos ++ infos
    transmissions := d.transmissions ++ transmissions
    transformations := d.transformations ++ transformations }

theorem extend_extend (d : Dossier) (is is' : List Info) (ms ms' : List Transmission)
    (fs fs' : List Transformation) :
    (d.extend is ms fs).extend is' ms' fs' = d.extend (is ++ is') (ms ++ ms') (fs ++ fs') := by
  simp only [extend, List.append_assoc]

/-- What `addNode` adds is what three searches find. -/
theorem answers_addNode (d : Dossier) (n : Node) (tx : Transaction) :
    (d.addNode n).Answers tx (.ok (d.extend (tx.view.selectInfos { origin := some n.id })
      (tx.view.selectTransmissions { origin := some n.id })
      (tx.view.selectTransformations { node := some n.id }))) := by
  refine (Access.answers_infos _ tx).bind_of_ok fun tx₁ h₁ => ?_
  refine (Access.answers_transmissions _ tx₁).bind_of_ok fun tx₂ h₂ => ?_
  rw [h₁.view_eq, ← (h₁.trans h₂).view_eq]
  exact (Access.answers_transformations _ tx₂).map _

/-- What belongs to several `nodes` is added node by node. -/
theorem answers_addNodes (nodes : List Node) (d : Dossier) (tx : Transaction) :
    (nodes.foldlM addNode d).Answers tx (.ok (d.extend
      (nodes.flatMap fun n => tx.view.selectInfos { origin := some n.id })
      (nodes.flatMap fun n => tx.view.selectTransmissions { origin := some n.id })
      (nodes.flatMap fun n => tx.view.selectTransformations { node := some n.id }))) := by
  induction nodes generalizing d tx with
  | nil => simpa [extend] using Access.Answers.pure d tx
  | cons n nodes ih =>
    rw [List.foldlM_cons]
    refine (d.answers_addNode n tx).bind_of_ok fun tx' hnoted => ?_
    simp only [List.flatMap_cons, ← extend_extend, ← hnoted.view_eq]
    exact ih _ tx'

end Dossier

/-- To collect the dossier of the network `id` is to read it off the view. -/
theorem Network.answers_dossier (id : NetworkId) (tx : Transaction) :
    (Network.dossier id).Answers tx (tx.view.networks[id]?.elim (.error (.missing (.network id)))
      fun network => .ok (tx.view.dossier network id)) := by
  have hlook := Access.answers_require (.network id) (·.networks[id]?) tx
  cases hnetwork : tx.view.networks[id]? with
  | none =>
    rw [hnetwork] at hlook
    exact hlook.bind (g := fun _ => .error (.missing (.network id))) fun _ _ h => nomatch h
  | some network =>
    rw [hnetwork] at hlook
    refine hlook.bind_of_ok fun tx₁ h₁ => ?_
    refine (Access.answers_nodes _ tx₁).bind_of_ok fun tx₂ h₂ => ?_
    refine (Access.answers_vectors _ tx₂).bind_of_ok fun tx₃ h₃ => ?_
    have hadd := Dossier.answers_addNodes (tx.view.selectNodes { network := some id })
      { network
        nodes := tx.view.selectNodes { network := some id }
        vectors := tx.view.selectVectors { network := some id } } tx₃
    rw [h₃.view_eq, h₂.view_eq, h₁.view_eq] at hadd
    rw [h₂.view_eq, h₁.view_eq]
    exact hadd

/-! ## What a dossier holds -/

/-- The dossier `d` holds the network `id` and what belongs to its nodes, each record once. -/
structure Dossier.Exact (t : Tables) (id : NetworkId) (d : Dossier) : Prop where
  network : t.networks[id]? = some d.network
  nodes : d.nodes.Perm ((Tables.rows t.nodes).filter fun n => n.network = some id)
  vectors : d.vectors.Perm
    ((Tables.rows t.vectors).filter fun v => ∃ n ∈ d.nodes, v.origin = n.id)
  infos : d.infos.Perm ((Tables.rows t.infos).filter fun i => ∃ n ∈ d.nodes, i.origin = n.id)
  transmissions : d.transmissions.Perm
    ((Tables.rows t.transmissions).filter fun m => ∃ i ∈ d.infos, m.info = i.id)
  transformations : d.transformations.Perm
    ((Tables.rows t.transformations).filter fun m => ∃ n ∈ d.nodes, m.node = n.id)

/-- The records of a dossier. -/
def Dossier.records (d : Dossier) : List Record :=
  d.nodes.map .node ++ d.vectors.map .vector ++ d.infos.map .info ++
    d.transmissions.map .transmission ++ d.transformations.map .transformation

namespace Tables

/-- To look up all keys of `table` is to go through the rows. -/
theorem filterMap_keys {e : Entity} {ρ : Type} (table : ExtTreeMap (Id e) ρ) :
    table.keys.filterMap (table[·]?) = rows table := by
  rw [← ExtTreeMap.map_fst_toList_eq_keys, List.filterMap_map, rows, ← List.filterMap_eq_map]
  refine List.filterMap_congr ?_
  rintro ⟨i, r⟩ hr
  exact ExtTreeMap.mem_toList_iff_getElem?_eq_some.1 hr

theorem selectNodes_perm (t : Tables) (id : NetworkId) :
    (t.selectNodes { network := some id }).Perm
      ((rows t.nodes).filter fun n => n.network = some id) := by
  refine (sort_perm _ _).trans (.of_eq (List.filter_congr fun n _ => ?_))
  simp [NodeQuery.matches]

theorem selectInfos_perm (t : Tables) (n : NodeId) :
    (t.selectInfos { origin := some n }).Perm ((rows t.infos).filter fun i => i.origin = n) := by
  refine (sort_perm _ _).trans (.of_eq (List.filter_congr fun i _ => ?_))
  simp [InfoQuery.matches]

theorem selectTransmissions_perm (t : Tables) (n : NodeId) :
    (t.selectTransmissions { origin := some n }).Perm
      ((rows t.transmissions).filter fun m => t.infos[m.info]?.map Info.origin = some n) := by
  refine (sort_perm _ _).trans (.of_eq (List.filter_congr fun m _ => ?_))
  cases h : t.infos[m.info]? <;> simp [TransmissionQuery.matches, h]

theorem selectTransformations_perm (t : Tables) (n : NodeId) :
    (t.selectTransformations { node := some n }).Perm
      ((rows t.transformations).filter fun m => m.node = n) := by
  refine (sort_perm _ _).trans (.of_eq (List.filter_congr fun m _ => ?_))
  simp [TransformationQuery.matches]

section Searches

variable {t : Tables} (ht : t.Intact) (id : NetworkId)
include ht

/-- The nodes of a network have different identifiers. -/
theorem nodup_selectNodes : ((t.selectNodes { network := some id }).map (·.id)).Nodup := by
  have hrows := rows_nodup fun i n h => (ht.node i n h).1
  have hperm := (selectNodes_perm t id).map (·.id)
  exact hperm.nodup_iff.2 (hrows.sublist (List.filter_sublist.map _))

/-- A record that refers to the node `i` refers to one of the network just if that network is its
home. -/
theorem exists_mem_selectNodes {i : NodeId} :
    (∃ n ∈ t.selectNodes { network := some id }, i = n.id) ↔
      t.nodes[i]?.bind Node.network = some id := by
  constructor
  · rintro ⟨n, hn, rfl⟩
    obtain ⟨hrow, hnetwork⟩ := List.mem_filter.1 ((selectNodes_perm t id).mem_iff.1 hn)
    rw [(mem_rows_of_id fun i n h => (ht.node i n h).1).1 hrow]
    exact of_decide_eq_true hnetwork
  · intro h
    obtain ⟨n, hn, hnetwork⟩ := Option.bind_eq_some_iff.1 h
    refine ⟨n, (selectNodes_perm t id).mem_iff.2 (List.mem_filter.2 ⟨mem_rows.2 ⟨i, hn⟩, ?_⟩),
      (ht.node i n hn).1.symm⟩
    exact decide_eq_true hnetwork

/-- A search for the vectors of a network goes through all vectors, by way of no index. -/
theorem selectVectors_perm :
    (t.selectVectors { network := some id }).Perm ((rows t.vectors).filter fun v =>
      ∃ n ∈ t.selectNodes { network := some id }, v.origin = n.id) := by
  have hall : t.vectors.keys.filterMap (t.vectors[·]?) = rows t.vectors := filterMap_keys _
  refine (sort_perm _ _).trans ?_
  rw [show t.vectorIds { network := some id } = t.vectors.keys from rfl, hall]
  refine .of_eq (List.filter_congr fun v _ => ?_)
  simp only [exists_mem_selectNodes ht]
  cases h : t.nodes[v.origin]? <;> simp [VectorQuery.matches, h]

end Searches

/-- The dossier that is read off tables which are `Intact` is exact. -/
theorem exact_dossier {t : Tables} (ht : t.Intact) {id : NetworkId} {network : Network}
    (hn : t.networks[id]? = some network) : (t.dossier network id).Exact t id := by
  have hnodup := nodup_selectNodes ht id
  have hinfos : ((t.dossier network id).infos).Perm ((rows t.infos).filter fun i =>
      ∃ n ∈ (t.dossier network id).nodes, i.origin = n.id) := by
    have howned := flatMap_owned (fun i : Info => some i.origin)
      (fun n => by simpa using selectInfos_perm t n) hnodup
    simp only [Option.some.injEq] at howned
    exact howned
  have htransformations : ((t.dossier network id).transformations).Perm
      ((rows t.transformations).filter fun m =>
        ∃ n ∈ (t.dossier network id).nodes, m.node = n.id) := by
    have howned := flatMap_owned (fun m : Transformation => some m.node)
      (fun n => by simpa using selectTransformations_perm t n) hnodup
    simp only [Option.some.injEq] at howned
    exact howned
  refine ⟨hn, selectNodes_perm t id, selectVectors_perm ht id, hinfos, ?_, htransformations⟩
  refine (flatMap_owned _ (selectTransmissions_perm t) hnodup).trans (.of_eq ?_)
  refine List.filter_congr fun m _ => decide_eq_decide.2 ⟨?_, ?_⟩
  · rintro ⟨n, hn, horigin⟩
    obtain ⟨i, hi, hio⟩ := Option.map_eq_some_iff.1 horigin
    refine ⟨i, hinfos.mem_iff.2 (List.mem_filter.2 ⟨mem_rows.2 ⟨_, hi⟩, ?_⟩),
      (ht.info _ i hi).1.symm⟩
    exact decide_eq_true ⟨n, hn, hio⟩
  · rintro ⟨i, hi, hinfo⟩
    obtain ⟨hrow, howned⟩ := List.mem_filter.1 (hinfos.mem_iff.1 hi)
    obtain ⟨n, hn, hio⟩ := of_decide_eq_true howned
    refine ⟨n, hn, ?_⟩
    rw [hinfo, (mem_rows_of_id fun i m h => (ht.info i m h).1).1 hrow, Option.map_some, hio]

end Tables

namespace Dossier.Exact

variable {t : Tables} {id : NetworkId} {d : Dossier} (ht : t.Intact) (h : d.Exact t id)
include ht h

/-- The node `i` is one of `d.nodes` just if it is in the network. -/
theorem exists_mem_nodes {i : NodeId} :
    (∃ n ∈ d.nodes, i = n.id) ↔ t.nodes[i]?.bind Node.network = some id := by
  rw [← Tables.exists_mem_selectNodes ht]
  simp only [(h.nodes.trans (Tables.selectNodes_perm t id).symm).mem_iff]

/-- The info `i` is one of `d.infos` just if its author is in the network. -/
theorem exists_mem_infos {i : InfoId} :
    (∃ m ∈ d.infos, i = m.id) ↔ (t.infos[i]?.map Info.origin).bind
      (fun owner => t.nodes[owner]?.bind Node.network) = some id := by
  have hstored := fun m : Info => Tables.mem_rows_of_id (r := m) fun i m h => (ht.info i m h).1
  simp only [h.infos.mem_iff, List.mem_filter, decide_eq_true_iff, h.exists_mem_nodes ht, hstored]
  constructor
  · rintro ⟨m, ⟨hm, hnetwork⟩, rfl⟩
    rwa [hm]
  · intro hi
    obtain ⟨owner, howner, hnetwork⟩ := Option.bind_eq_some_iff.1 hi
    obtain ⟨m, hm, rfl⟩ := Option.map_eq_some_iff.1 howner
    obtain rfl := (ht.info i m hm).1
    exact ⟨m, ⟨hm, hnetwork⟩, rfl⟩

/-- The dossier `d` holds the records that are at home in its network, each once. -/
theorem records_perm : d.records.Perm (t.owned.filter fun r => t.home? r = some id) := by
  have hkind {ρ : Type} {l all : List ρ} {p : ρ → Bool} (kind : ρ → Record)
      (hl : l.Perm (all.filter p)) (hp : ∀ a ∈ all, p a = true ↔ t.home? (kind a) = some id) :
      (l.map kind).Perm ((all.map kind).filter fun r => t.home? r = some id) := by
    rw [List.filter_map]
    refine (hl.map kind).trans (.of_eq (congrArg (List.map kind) (List.filter_congr ?_)))
    intro a ha
    exact Bool.eq_iff_iff.2 ((hp a ha).trans decide_eq_true_iff.symm)
  have hnodes := hkind .node h.nodes fun n hn => by
    rw [Tables.mem_rows_of_id fun i n h => (ht.node i n h).1] at hn
    simp [Tables.home?, Tables.owner?, hn]
  have hvectors := hkind .vector h.vectors fun v _ => by
    rw [decide_eq_true_iff, h.exists_mem_nodes ht]
    rfl
  have hinfos := hkind .info h.infos fun i _ => by
    rw [decide_eq_true_iff, h.exists_mem_nodes ht]
    rfl
  have htransmissions := hkind .transmission h.transmissions fun m _ => by
    rw [decide_eq_true_iff, h.exists_mem_infos ht]
    rfl
  have htransformations := hkind .transformation h.transformations fun m _ => by
    rw [decide_eq_true_iff, h.exists_mem_nodes ht]
    rfl
  simp only [Tables.owned, List.filter_append]
  exact (((hnodes.append hvectors).append hinfos).append htransmissions).append htransformations

end Dossier.Exact

namespace World

variable {α : Type} {w : World α}

/-- In every view, the dossier of a network that is there holds the nodes of the network and what
belongs to them, and that of another network is not found. A record that is not a network is in the
dossier of the network at which it is at home, once, and in no other. -/
theorem Reachable.dossiers_partition (h : w.Reachable) {name : Nat} {s : Session α}
    (hs : w.sessions name = some s) :
    (∀ id : NetworkId, s.tx.view.networks[id]? = none →
      outcome (Network.dossier id s.tx) = .error (.missing (.network id)) ∧
        (Error.missing (.network id)).kind = .topic .notFound) ∧
    (∀ (id : NetworkId) network, s.tx.view.networks[id]? = some network →
      ∃ d, outcome (Network.dossier id s.tx) = .ok d ∧ d.network = network ∧
        d.Exact s.tx.view id) ∧
    ∀ r, s.tx.view.find? r.key = some r → (∀ n, r ≠ .network n) →
      (∀ id, s.tx.view.home? r = some id → ∃ d, outcome (Network.dossier id s.tx) = .ok d) ∧
      ∀ id d, outcome (Network.dossier id s.tx) = .ok d →
        d.records.count r = if s.tx.view.home? r = some id then 1 else 0 := by
  have ht := (h.referential_integrity.2 name s hs).1
  have hanswer (id : NetworkId) := (Network.answers_dossier id s.tx).outcome
  have hexact {id : NetworkId} {d : Dossier} (hd : outcome (Network.dossier id s.tx) = .ok d) :
      d.Exact s.tx.view id := by
    rw [hanswer] at hd
    cases hn : s.tx.view.networks[id]? with
    | none => rw [hn] at hd; cases hd
    | some network =>
      rw [hn] at hd
      cases hd
      exact Tables.exact_dossier ht hn
  refine ⟨fun id hn => ⟨by rw [hanswer, hn]; rfl, rfl⟩, fun id network hn => ?_,
    fun r hr hnetwork => ⟨fun id hhome => ?_, fun id d hd => ?_⟩⟩
  · have hd : outcome (Network.dossier id s.tx) = .ok (s.tx.view.dossier network id) := by
      rw [hanswer, hn]
      rfl
    exact ⟨_, hd, rfl, hexact hd⟩
  · obtain ⟨owner, -, hbind⟩ := Option.bind_eq_some_iff.1 hhome
    obtain ⟨n, hn, hnetwork⟩ := Option.bind_eq_some_iff.1 hbind
    have hmem := (ht.node owner n hn).2 id hnetwork
    obtain ⟨network, hid⟩ := Option.isSome_iff_exists.1 (ExtTreeMap.isSome_getElem?_iff_mem.2 hmem)
    exact ⟨_, by rw [hanswer, hid]; rfl⟩
  · rw [((hexact hd).records_perm ht).count_eq]
    split
    · rename_i hhome
      refine List.count_eq_one_of_mem ((Tables.nodup_owned ht).filter _) (List.mem_filter.2 ?_)
      exact ⟨Tables.mem_owned hr hnetwork, decide_eq_true hhome⟩
    · rename_i hhome
      exact List.count_eq_zero.2 fun hmem => hhome (of_decide_eq_true (List.mem_filter.1 hmem).2)

/-- Two networks have a node each, and a third node is in neither of them. The first node has died,
but had sent an info to the second one. A vector leads from the third node to the first. -/
def census : List Event :=
  [.begin 0 .readWrite .serializable, .ask 0 (.insert (.network (network 1))),
    .ask 0 (.insert (.network (network 2))),
    .ask 0 (.insert (.node { Node.numbered 3 with network := some ⟨1⟩, status := .dead })),
    .ask 0 (.insert (.node { Node.numbered 4 with network := some ⟨2⟩ })),
    .ask 0 (.insert (.node (.numbered 5))), .ask 0 (.insert arrow),
    .ask 0 (.insert (.info (.numbered 7 3))), .ask 0 (.insert letter)]
where
  network (n : Nat) : Network :=
    { id := ⟨.ofNat 128 n⟩, kind := .base, creationTime := .ofMoment .first }
  letter : Record := .transmission
    { id := ⟨8⟩, info := ⟨7⟩, destination := ⟨4⟩, transmitTime := .ofMoment .first }
  arrow : Record := .vector (.numbered 6 5 3)

/-- The letter of the dead node is in the dossier of the first network only, and the vector from the
third node in neither. -/
theorem dossiers_partition_census : ∃ s, (run .still census).sessions 0 = some s ∧
    outcome (Network.dossier ⟨3⟩ s.tx) = .error (.missing (.network ⟨3⟩)) ∧
    ∃ d d', outcome (Network.dossier ⟨1⟩ s.tx) = .ok d ∧ d.Exact s.tx.view ⟨1⟩ ∧
      outcome (Network.dossier ⟨2⟩ s.tx) = .ok d' ∧ d'.Exact s.tx.view ⟨2⟩ ∧
      d.records.count census.letter = 1 ∧ d'.records.count census.letter = 0 ∧
      d.records.count census.arrow = 0 ∧ d'.records.count census.arrow = 0 := by
  -- The view is computed once; what follows is about any session with this view.
  have hview : ∀ t ∈ ((run .still census).sessions 0).map (·.tx.view),
      (t.networks[(⟨1⟩ : NetworkId)]? = some (census.network 1) ∧
        t.networks[(⟨2⟩ : NetworkId)]? = some (census.network 2) ∧
        t.networks[(⟨3⟩ : NetworkId)]? = none) ∧
      (t.find? census.letter.key = some census.letter ∧ t.home? census.letter = some ⟨1⟩) ∧
      t.find? census.arrow.key = some census.arrow ∧ t.home? census.arrow = none := by
    decide +kernel
  obtain ⟨s, hs⟩ : ∃ s, (run .still census).sessions 0 = some s := ⟨_, rfl⟩
  obtain ⟨⟨hfirst, hsecond, hthird⟩, ⟨hletter, hsender⟩, harrow, hnobody⟩ :=
    hview s.tx.view (by rw [hs]; rfl)
  obtain ⟨hmissing, hdossiers, hrecords⟩ := (reachable_run .still census).dossiers_partition hs
  obtain ⟨d, hd, -, hexact⟩ := hdossiers _ _ hfirst
  obtain ⟨d', hd', -, hexact'⟩ := hdossiers _ _ hsecond
  obtain ⟨-, hletters⟩ := hrecords _ hletter (by simp [census.letter])
  obtain ⟨-, harrows⟩ := hrecords _ harrow (by simp [census.arrow])
  refine ⟨s, hs, (hmissing _ hthird).1, d, d', hd, hexact, hd', hexact', ?_⟩
  rw [hletters _ d hd, hletters _ d' hd', harrows _ d hd, harrows _ d' hd', hsender, hnobody]
  decide

end World

end Propagation
