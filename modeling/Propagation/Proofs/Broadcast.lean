import Propagation.Proofs.Growth
import Propagation.Proofs.Outreach

/-!
# Sources that send to all agents

A source that is added to a network is joined to its agents by one vector each. The agents are
looked up in the order of their creation, and the vectors are made in this order, at times that
increase. When the source sends, its vectors are looked up in the order of these times. So it sends
to the agents in the order in which they were found when it was added, however much later that is.
Agents that have died or failed since then are not left out, since only the vectors are asked
whether they are alive.

## Main definitions

* `Network.Attaches`: a source has joined a network and leads to all its agents.
* `Chronicle.Fading`, `Chronicle.Fades`: nodes are killed or fail, and what else may happen while
  no vector is made or changed.

## Main statements

* `Network.Attaches.agentsIn_eq`, `Network.Attaches.degrees_eq`: the agents of the network are the
  same afterwards, and so are their degrees.
* `Chronicle.Keeps.fades`, `Chronicle.Agents.fades`: the end of nodes touches no vector and no role.
* `Chronicle.Keeps.reaches`: whom a node reaches from which these vectors lead.
* `Chronicle.Run.broadcast`: a source sends to all agents that there were when it was added.
-/

namespace Propagation

/-! ## New vectors -/

namespace Vector

theorem isAlive_of_mem_freshAll {ends : List (NodeId × NodeId)} {m : Mint} {v : Vector}
    (hv : v ∈ (freshAll ends m).1) : v.isAlive := by
  induction ends generalizing m with
  | nil => cases hv
  | cons p ends ih =>
    rw [freshAll_cons] at hv
    rcases List.mem_cons.1 hv with rfl | hv
    · rfl
    · exact ih hv

/-- The times of vectors of `freshAll` come after those that were issued before. -/
theorem dealt_freshAll (ends : List (NodeId × NodeId)) {m : Mint} {times : List Timestamp}
    (h : m.clock.Dealt times) : (freshAll ends m).2.clock.Dealt
      (times ++ (freshAll ends m).1.map (·.creationTime)) := by
  induction ends generalizing m times with
  | nil => exact (List.append_nil times).symm ▸ h
  | cons p ends ih =>
    rw [freshAll_cons, List.map_cons, List.append_cons]
    exact ih h.tick

/-- As long as the clock has not got beyond the year 9999, the vectors of `freshAll` are in
chronological order. -/
theorem ordered_freshAll {ends : List (NodeId × NodeId)} {m : Mint}
    (hplain : (freshAll ends m).2.clock.Plain) :
    (freshAll ends m).1.Pairwise fun v w => v.chronological w = .lt := by
  have hdealt := dealt_freshAll ends (.nil m.clock)
  rw [List.nil_append] at hdealt
  exact (List.pairwise_map.1 (hdealt.increasing hplain)).imp Timestamp.compareLex_of_text_lt

end Vector

/-! ## Adding a source -/

namespace Network

variable {network : Network}

/-- From `t` to `u`, the stored node `source` has become a member of `network` and has got the
vectors `made` to all its agents. Nothing else is stored. -/
structure Attaches (network : Network) (source : Node) (made : List Vector) (t u : Tables) :
    Prop where
  tables : u = (t.put (.node (network.member source))).putAll (made.map .vector)
  ends : made.map Vector.ends = (network.agentsIn t).map fun agent => (source.id, agent.id)
  free : ∀ v ∈ made, t.has (.vector v.id) = false
  nodup : (made.map (·.id)).Nodup
  alive : ∀ v ∈ made, v.isAlive
  ordered : made.Pairwise fun v w => v.chronological w = .lt

section Source

variable {t : Tables} (hkeyed : t.Keyed) {source : Node}
  (hstored : t.nodes[source.id]? = some source) (hsource : source.kind.role = .source)
include hkeyed hstored hsource

/-- A source is none of the agents of `network`. -/
theorem ne_of_mem_agentsIn {a : Node} (ha : a ∈ network.agentsIn t) : a.id ≠ source.id := by
  intro hid
  obtain ⟨hlookup, -, hrole, -⟩ := (mem_agentsIn hkeyed).1 ha
  rw [hid, hstored] at hlookup
  cases hlookup
  cases hrole.symm.trans hsource

/-- To make a source a member of `network` leaves its agents as they are. -/
theorem agentsIn_put_source :
    network.agentsIn (t.put (.node (network.member source))) = network.agentsIn t := by
  refine agentsIn_put hkeyed (fun n hn => ne_of_mem_agentsIn hkeyed hstored hsource hn) fun _ => ?_
  rw [show (network.member source).kind.role = .source from hsource]
  nofun

end Source

section AddSource

variable {copy stored : Node} {tx : Transaction} {mint : Mint} (hkeyed : tx.view.Keyed)
  (hid : stored.id = copy.id) (hstored : tx.view.nodes[copy.id]? = some stored)
  (hrole : copy.kind.role = .source) (hsource : stored.kind.role = .source)
  (hnetwork : tx.view.has (.network network.id)) (hmode : tx.mode = .readWrite)
include hkeyed hid hstored hrole hsource hnetwork hmode

/-- Where no vector has an identifier that is drawn and the clock stays within the year 9999, a
source that is added to a network that is there, in a transaction that may write, `Attaches` to all
agents. -/
theorem exists_attaches
    (hunused : tx.view.Unused .vector mint.ids
      (final (network.addSourceToAll { copy, scene := { tx, mint } })).scene.mint.ids)
    (hplain :
      (final (network.addSourceToAll { copy, scene := { tx, mint } })).scene.mint.clock.Plain) :
    ∃ made scene, Holding.through copy network.addSourceToAll { tx, mint } = .ok made scene ∧
      network.Attaches stored made tx.view scene.tx.view := by
  have hrun := addSourceToAll_ok hrole hid hstored hnetwork hmode hkeyed hunused
  rw [hrun] at hunused hplain
  refine ⟨_, _, Holding.through_of_ok hrun, Transaction.view_storeAll _ _, ?_,
    fun v => Vector.free_of_mem_freshAll hunused, Vector.nodup_freshAll hunused,
    fun v => Vector.isAlive_of_mem_freshAll, Vector.ordered_freshAll hplain⟩
  have hagents : network.agentsIn (network.enroll stored tx).view = network.agentsIn tx.view :=
    agentsIn_put_source hkeyed (hid ▸ hstored) hsource
  rw [hid, ← hagents]
  exact Vector.ends_freshAll _ mint

end AddSource

namespace Attaches

variable {source : Node} {made : List Vector} {t u : Tables}
  (h : network.Attaches source made t u)
include h

theorem nodes_eq (i : NodeId) : u.nodes[i]? =
    if source.id = i then some (network.member source) else t.nodes[i]? := by
  rw [h.tables, Tables.nodes_putAll_vector, Tables.nodes_put_node]
  rfl

theorem vectors_iff (i : VectorId) (v : Vector) :
    u.vectors[i]? = some v ↔ (v ∈ made ∧ v.id = i) ∨ t.vectors[i]? = some v := by
  rw [h.tables]
  exact Tables.vectors_putAll (t := t.put (.node (network.member source))) h.nodup h.free i v

/-- The vectors that were `made` lead from `source`. -/
theorem origin_eq {v : Vector} (hv : v ∈ made) : v.origin = source.id := by
  have hends : v.ends ∈ made.map Vector.ends := List.mem_map_of_mem hv
  rw [h.ends] at hends
  obtain ⟨a, -, heq⟩ := List.mem_map.1 hends
  exact (congrArg Prod.fst heq).symm

/-- They lead to the agents of `network`, in their order. -/
theorem destinations_eq : made.map (·.destination) = (network.agentsIn t).map (·.id) := by
  have hsnd := congrArg (List.map Prod.snd) h.ends
  rw [List.map_map, List.map_map] at hsnd
  exact hsnd

/-- What leaves a node `i` other than `source` is the same as before. -/
theorem outgoing_eq (ht : t.Indexed) (hu : u.Indexed) {i : NodeId} (hi : i ≠ source.id) :
    u.selectVectors (Side.outgoing.query i) = t.selectVectors (Side.outgoing.query i) := by
  have hafter := hu.finds_selectVectors (Side.outgoing.query i)
  have hbefore := ht.finds_selectVectors (Side.outgoing.query i)
  refine eq_of_pairwise_lt hafter.ordered hbefore.ordered fun v => ?_
  rw [hafter.mem_iff, hbefore.mem_iff, fits_outgoing_iff, fits_outgoing_iff, h.vectors_iff]
  refine and_congr_left fun horigin => or_iff_right ?_
  rintro ⟨hv, -⟩
  exact hi (horigin.symm.trans (h.origin_eq hv))

variable (hkeyed : t.Keyed) (hstored : t.nodes[source.id]? = some source)
  (hsource : source.kind.role = .source)
include hkeyed hstored hsource

/-- The network has the same agents in `u` as in `t`. -/
theorem agentsIn_eq : network.agentsIn u = network.agentsIn t := by
  rw [agentsIn_congr (h.tables ▸ Tables.nodes_putAll_vector made _),
    agentsIn_put_source hkeyed hstored hsource]

/-- No agent has another degree in `u` than in `t`. -/
theorem degrees_eq (ht : t.Indexed) (hu : u.Indexed) :
    (network.agentsIn u).map (fun n => (u.selectVectors (Side.outgoing.query n.id)).length) =
      (network.agentsIn t).map fun n => (t.selectVectors (Side.outgoing.query n.id)).length := by
  rw [h.agentsIn_eq hkeyed hstored hsource]
  refine List.map_congr_left fun n hn => ?_
  rw [h.outgoing_eq ht hu (ne_of_mem_agentsIn hkeyed hstored hsource hn)]

end Attaches

end Network

/-! ## While nodes end -/

/-- From `t` to `u`, no node and no vector has come, and no vector has changed. Nodes may have
ended. -/
structure Tables.Fades (t u : Tables) : Prop where
  vectors : ∀ i : VectorId, u.vectors[i]? = t.vectors[i]?
  nodes : ∀ (i : NodeId) n, u.nodes[i]? = some n → ∃ old, t.nodes[i]? = some old ∧ old.Stays n

theorem Tables.Fades.refl (t : Tables) : t.Fades t := ⟨fun _ => rfl, fun _ n hn => ⟨n, hn, .refl n⟩⟩

/-- The operation kills a node or lets one fail, or the requests that it makes are `Request.Aside`.
-/
inductive Op.Fades : {β : Type} → Op β → Prop
  | kill (copy : Node) : Fades (Holding.on copy Node.kill)
  | fail (copy : Node) : Fades (Holding.on copy Node.fail)
  | aside {β : Type} {op : Op β} (h : Asks Request.Aside op) : Fades op

/-- To `finish` a node changes no vector. -/
theorem Node.fades_finish (target : NodeStatus) (copy : Node) (s : Scene)
    (hkeyed : s.tx.view.Keyed) :
    s.tx.view.Fades (final (Holding.on copy (finish target) s)).tx.view := by
  rw [Holding.scene_final_on]
  generalize hafter : (final (finish target { copy, scene := s })).scene.tx = tx
  rcases finish_cases hkeyed hafter.symm with rfl | ⟨stored, n, hstored, hstays, rfl⟩
  · exact .refl _
  · refine ⟨fun i => rfl, fun i n' hn' => ?_⟩
    rw [Transaction.view_store, Tables.nodes_put_node] at hn'
    by_cases hid : n.id = i
    · rw [if_pos hid] at hn'
      cases hn'
      exact ⟨stored, hid ▸ hstored, hstays⟩
    · rw [if_neg hid] at hn'
      exact ⟨n', hn', .refl n'⟩

/-- To `create` an info stores neither nodes nor vectors. -/
theorem Info.aside_create (origin : NodeId) (infoType contents : String) :
    Asks Request.Aside (create origin infoType contents) := fun s =>
  (final_create origin infoType contents s).2.mono fun r hr t ht => by
    rw [hr t ht]
    exact ⟨nofun, nofun⟩

/-- An operation of `Op.Fades` changes no vector and no role. -/
theorem Op.Fades.tables {β : Type} {op : Op β} (h : op.Fades) (s : Scene)
    (hkeyed : s.tx.view.Keyed) : s.tx.view.Fades (final (op s)).tx.view := by
  cases h with
  | kill copy => exact Node.fades_finish .dead copy s hkeyed
  | fail copy => exact Node.fades_finish .failed copy s hkeyed
  | aside h =>
    have hcalm : s.tx.Calmly (fun _ => False) (final (op s)).tx := (h s).calmly
    refine ⟨hcalm.view.vectors, fun i n hn => ?_⟩
    have hhas := (hcalm.comes i (Tables.has_node_iff.2 ⟨n, hn⟩)).resolve_right id
    obtain ⟨old, hold⟩ := Tables.has_node_iff.1 hhas
    obtain ⟨n', hn', hstays⟩ := hcalm.view.stays i old hold
    cases hn.symm.trans hn'
    exact ⟨old, hold, hstays⟩

namespace Chronicle

variable {α : Type} {c c' c'' : Chronicle α}

/-- One step while nodes end: one is killed or fails, or records other than nodes and vectors are
stored, or a transaction begins or ends. -/
inductive Fading (c : Chronicle α) : Chronicle α → Prop
  | begin (name : Nat) (mode : TxMode) (isolation : Isolation) (note : α) :
    Fading c { c with world := c.world.begin name mode isolation note }
  | use {name : Nat} {β : Type} {op : Op β} {remark : Except Error β → α → α} {c' : Chronicle α}
    (hop : op.Fades) (h : c.Uses name op remark c') : Fading c c'
  | commit (name : Nat) : Fading c { c with world := c.world.commit name }
  | rollback (name : Nat) : Fading c { c with world := c.world.rollback name }
  | aside {f : Store → Store} (hf : ∀ s, (f s).committed = s.committed) :
    Fading c { c with world := c.world.aside f }

/-- Any number of steps of `Fading`. -/
def Fades : Chronicle α → Chronicle α → Prop := Relation.ReflTransGen Fading

theorem Fading.step (h : c.Fading c') : c.Step c' := by
  cases h with
  | begin name mode isolation note => exact .begin name mode isolation note
  | use hop h => exact .use h
  | commit name => exact .commit name
  | rollback name => exact .rollback name
  | aside hf => exact .aside hf

/-- What can be looked at after a step of `Fading` could be before, but for nodes that have ended;
or it is what a commit leaves. -/
theorem Fading.emerges (h : c.Fading c') (hc : c.Sound) {t : Tables} (ht : c'.world.Offers t) :
    (∃ u, c.world.Offers u ∧ u.Fades t) ∨ ∃ name s, c.world.sessions name = some s ∧
      t = (c.world.store.committed.apply s.tx).tables := by
  cases h with
  | begin name mode isolation note => exact .inl ⟨t, World.offers_begin ht, .refl t⟩
  | use hop h =>
    obtain ⟨s, -, hs, -⟩ := h.made
    rcases h.offers_cases hs ht with ht | rfl
    · exact .inl ⟨t, ht, .refl t⟩
    · have hfades := hop.tables { tx := s.tx, mint := c.world.store.mint }
        (hc.reachable.keyed_offered (.view hs))
      exact .inl ⟨s.tx.view, .view hs, hfades⟩
  | commit name =>
    rcases World.offers_commit ht with ht | ⟨s, hs, rfl⟩
    · exact .inl ⟨t, ht, .refl t⟩
    · exact .inr ⟨name, s, hs, rfl⟩
  | rollback name => exact .inl ⟨t, World.offers_rollback ht, .refl t⟩
  | aside hf => exact .inl ⟨t, World.offers_aside (hf _) ht, .refl t⟩

/-- Each vector that can be looked at after a step of `Fading` could be looked at before, and each
node was there in the same role. -/
theorem Fading.origins (h : c.Fading c') (hc : c.Sound) {t : Tables} (ht : c'.world.Offers t) :
    (∀ (i : VectorId) v, t.vectors[i]? = some v →
      ∃ u, c.world.Offers u ∧ u.vectors[i]? = some v) ∧
    ∀ (i : NodeId) n, t.nodes[i]? = some n →
      ∃ u, c.world.Offers u ∧ ∃ old, u.nodes[i]? = some old ∧ old.Stays n := by
  rcases h.emerges hc ht with ⟨u, hu, hfades⟩ | ⟨name, s, hs, rfl⟩
  · refine ⟨fun i v hv => ⟨u, hu, (hfades.vectors i).symm.trans hv⟩, fun i n hn => ?_⟩
    exact ⟨u, hu, hfades.nodes i n hn⟩
  · -- each record of what is committed was committed before or is that of the view
    have hone (k : Key) : ∃ u, c.world.Offers u ∧
        (c.world.store.committed.apply s.tx).tables.find? k = u.find? k := by
      by_cases hk : k ∈ s.tx.writes
      · exact ⟨_, .view hs, hc.reachable.sound.find?_apply_of_mem hs hk⟩
      · exact ⟨_, .committed, hc.reachable.sound.find?_apply_of_notMem hs hk⟩
    refine ⟨fun i v hv => ?_, fun i n hn => ?_⟩
    · obtain ⟨u, hu, hsame⟩ := hone (.vector i)
      exact ⟨u, hu, (Tables.vectors_congr hsame).symm.trans hv⟩
    · obtain ⟨u, hu, hsame⟩ := hone (.node i)
      exact ⟨u, hu, n, (Tables.nodes_congr hsame).symm.trans hn, .refl n⟩

/-- In a step of `Fading` no vector is made. -/
theorem Fading.vector_made (h : c.Fading c') (hc : c.Sound) {v : Vector}
    (hv : .vector v ∈ c'.made) : .vector v ∈ c.made := by
  cases h with
  | use hop h =>
    obtain ⟨s, -, hs, -⟩ := h.made
    obtain ⟨made, hmade, heq⟩ := h.made_eq hs
    rw [heq] at hv
    refine (List.mem_append.1 hv).resolve_right fun hnew => ?_
    have hfades := hop.tables { tx := s.tx, mint := c.world.store.mint }
      (hc.reachable.keyed_offered (.view hs))
    obtain ⟨w, hw⟩ := Tables.has_vector_iff.1
      ((hmade.has_iff (.vector v.id)).2 (.inr (List.mem_map_of_mem hnew)))
    exact Tables.vectors_ne_of_free (hmade.free _ hnew) w ((hfades.vectors v.id).symm.trans hw)
  | _ => exact hv

theorem Fades.leads (h : c.Fades c') : c.Leads c' :=
  Relation.ReflTransGen.mono (fun _ _ => Fading.step) _ _ h

/-- The vectors that leave `source` are those in `made`: no others were made, and where one of them
is found, it is as it was made. -/
structure Keeps (c : Chronicle α) (source : NodeId) (made : List Vector) : Prop where
  only : ∀ v, .vector v ∈ c.made → v.origin = source → ∃ w ∈ made, w.id = v.id
  same : ∀ t, c.world.Offers t → ∀ v ∈ made, ∀ w, t.vectors[v.id]? = some w → w = v

/-- Wherever one of `nodes` is found, it is an agent. -/
def Agents (c : Chronicle α) (nodes : List NodeId) : Prop :=
  ∀ t, c.world.Offers t → ∀ i ∈ nodes, ∀ n, t.nodes[i]? = some n → n.kind.role = .agent

/-- While nodes end, `source` keeps its vectors. -/
theorem Keeps.fades {source : NodeId} {made : List Vector} (h : c.Keeps source made)
    (hc : c.Sound) (hfades : c.Fades c') : c'.Keeps source made := by
  induction hfades with
  | refl => exact h
  | tail hfades hstep ih =>
    have hsound := hc.leads (Fades.leads hfades)
    refine ⟨fun v hv => ih.only v (hstep.vector_made hsound hv), fun t ht v hv w hw => ?_⟩
    obtain ⟨u, hu, hw⟩ := (hstep.origins hsound ht).1 _ w hw
    exact ih.same u hu v hv w hw

/-- While nodes end, agents stay agents. -/
theorem Agents.fades {nodes : List NodeId} (h : c.Agents nodes) (hc : c.Sound)
    (hfades : c.Fades c') : c'.Agents nodes := by
  induction hfades with
  | refl => exact h
  | tail hfades hstep ih =>
    intro t ht i hi n hn
    obtain ⟨u, hu, old, hold, hstays⟩ := (hstep.origins (hc.leads (Fades.leads hfades)) ht).2 i n hn
    rw [hstays.role]
    exact ih u hu i hi old hold

/-- Where all of the vectors are found, they are the ones that leave the node. -/
theorem Keeps.emits {source : NodeId} {made : List Vector} (h : c.Keeps source made) (hc : c.Sound)
    {t : Tables} (ht : c.world.Offers t) (horigin : ∀ v ∈ made, v.origin = source)
    (hthere : ∀ v ∈ made, t.has (.vector v.id)) : t.Emits source made := by
  intro v
  constructor
  · rintro ⟨hv, hleaves⟩
    obtain ⟨first, hmade, hid, hle⟩ := (hc.descends t ht).vector hv
    obtain ⟨w, hw, hsame⟩ := h.only first hmade (hle.origin.symm.trans hleaves)
    rw [h.same t ht w hw v (by rw [hsame, hid, hv])]
    exact hw
  · intro hv
    obtain ⟨w, hw⟩ := Tables.has_vector_iff.1 (hthere v hv)
    obtain rfl := h.same t ht v hv w hw
    exact ⟨hw, horigin w hv⟩

section Attaches

variable {β : Type} {name : Nat} {op : Op β} {remark : Except Error β → α → α}
  (huses : c.Uses name op remark c') (hc : c.Sound) {s : Session α}
  (hs : c.world.sessions name = some s) {network : Network} {source : Node} {made : List Vector}
  (hattaches : network.Attaches source made s.tx.view
    (final (op { tx := s.tx, mint := c.world.store.mint })).tx.view)
include huses hc hs hattaches

/-- If no vectors were made that leave the source before it was joined to the agents, the new ones
are all. -/
theorem Uses.keeps (hnone : ∀ v, .vector v ∈ c.made → v.origin ≠ source.id) :
    c'.Keeps source.id made := by
  obtain ⟨new, hmakes, heq⟩ := huses.made_eq hs
  have hnew : ∀ v ∈ made, .vector v.id ∈ new.map Record.key := by
    intro v hv
    have hhas := Tables.has_vector_iff.2 ⟨v, (hattaches.vectors_iff v.id v).2 (.inl ⟨hv, rfl⟩)⟩
    refine ((hmakes.has_iff (.vector v.id)).1 hhas).resolve_left fun hold => ?_
    rw [hattaches.free v hv] at hold
    cases hold
  refine ⟨fun v hv horigin => ?_, fun t ht v hv w hw => ?_⟩
  · rw [heq] at hv
    rcases List.mem_append.1 hv with hv | hv
    · exact absurd horigin (hnone v hv)
    · have hkey : Key.vector v.id ∈ new.map Record.key := List.mem_map_of_mem hv
      obtain ⟨w, hw⟩ := Tables.has_vector_iff.1 ((hmakes.has_iff _).2 (.inr hkey))
      rcases (hattaches.vectors_iff _ w).1 hw with hw | hold
      · exact ⟨w, hw⟩
      · exact absurd hold (Tables.vectors_ne_of_free (hmakes.free _ hv) w)
  · rcases huses.offers_cases hs ht with ht | rfl
    · -- what could be looked at before comes from what was made before, under other keys
      obtain ⟨first, hmade, hid, -⟩ := (hc.descends t ht).vector hw
      have hfresh := huses.fresh
      rw [heq, List.map_append, List.nodup_append] at hfresh
      have hkey : Key.vector v.id ∈ c.made.map Record.key :=
        List.mem_map.2 ⟨_, hmade, congrArg Key.vector hid⟩
      exact absurd rfl (hfresh.2.2 _ hkey _ (hnew v hv))
    · rcases (hattaches.vectors_iff _ w).1 hw with ⟨hmem, hid⟩ | hold
      · exact List.inj_on_of_nodup_map hattaches.nodup hmem hv hid
      · exact absurd hold (Tables.vectors_ne_of_free (hattaches.free v hv) w)

/-- The agents that `source` was joined to stay agents. -/
theorem Uses.agents (hstored : s.tx.view.nodes[source.id]? = some source)
    (hsource : source.kind.role = .source)
    (hagents : c.Agents ((network.agentsIn s.tx.view).map (·.id))) :
    c'.Agents ((network.agentsIn s.tx.view).map (·.id)) := by
  intro t ht i hi n hn
  rcases huses.offers_cases hs ht with ht | rfl
  · exact hagents t ht i hi n hn
  · obtain ⟨a, ha, rfl⟩ := List.mem_map.1 hi
    have hkeyed := hc.reachable.keyed_offered (.view hs)
    have hne := Network.ne_of_mem_agentsIn hkeyed hstored hsource ha
    rw [hattaches.nodes_eq, if_neg hne.symm] at hn
    exact hagents _ (.view hs) _ hi n hn

end Attaches

/-! ## Broadcasting -/

/-- In the open session `s`, which may write and where no transmission has an identifier that is
drawn, node `n` is about to send an info `i` of its own that is stored. -/
structure Poised (c : Chronicle α) (s : Session α) (n : Node) (b : Behavior) (i : Info)
    (r : Option Recipients) : Prop where
  session : ∃ name, c.world.sessions name = some s
  mode : s.tx.mode = .readWrite
  own : i.origin = n.id
  there : s.tx.view.has (.info i.id)
  unused : s.tx.view.Unused .transmission c.world.store.mint.ids
    (final (n.transmit b (some (.info i)) r { tx := s.tx, mint := c.world.store.mint })).mint.ids

/-- If the vectors that leave node `n` are those in `made` and lead to different nodes, then `n`
reaches these, or, if they are all agents, reaches them as agents. -/
theorem Keeps.reaches {made : List Vector} {s : Session α} {n : Node} {b : Behavior} {i : Info}
    {r : Option Recipients} (h : c.Keeps n.id made) (hc : c.Sound) (hpoised : c.Poised s n b i r)
    (horigin : ∀ v ∈ made, v.origin = n.id) (halive : ∀ v ∈ made, v.isAlive)
    (hordered : made.Pairwise fun v w => v.chronological w = .lt)
    (hnodup : (made.map (·.destination)).Nodup)
    (hthere : ∀ v ∈ made, s.tx.view.has (.vector v.id))
    (hrecipients : r = none ∧ b.recipients = Behavior.plain.recipients ∨
      r = some (.ofType (.role .agent)) ∧ c.Agents (made.map (·.destination))) :
    n.Reaches b i r (made.map (·.destination)) { tx := s.tx, mint := c.world.store.mint } := by
  obtain ⟨name, hs⟩ := hpoised.session
  have hkeyed := hc.reachable.keyed_offered (.view hs)
  have hclosed := hc.reachable.closed_offered (.view hs)
  have hindexed := hc.indexed (.view hs)
  have hemits := h.emits hc (.view hs) horigin hthere
  obtain ⟨f, hplan, hchosen⟩ : ∃ f, n.planRecipients b r = liftM (n.someRecipients (.ofType f)) ∧
      ∀ v ∈ made, ∀ m, s.tx.view.nodes[v.destination]? = some m → f.matches m := by
    rcases hrecipients with ⟨rfl, hb⟩ | ⟨rfl, hagents⟩
    · exact ⟨.any, n.planRecipients_of_default hb, fun _ _ _ _ => rfl⟩
    · refine ⟨.role .agent, rfl, fun v hv m hm => decide_eq_true ?_⟩
      exact hagents _ (.view hs) v.destination (List.mem_map_of_mem hv) m hm
  exact Node.reaches_of_emits hkeyed hclosed hindexed hplan hpoised.own hemits halive hordered
    hnodup hchosen hpoised.mode hpoised.there hpoised.unused

/-- In a view of a run that may be written and where no vector has an identifier that is drawn, a
source from which no vector was ever made is added to a network. It becomes a member and gets a
vector to each agent, and no agent has another degree than before. However many nodes are killed or
fail after that, as long as the vectors are found where the source sends, an info of its own goes to
all agents that there were, in their order, if it is sent by default to all, or to agents. In the
latter case, these nodes were agents wherever they could be found when the source was added. -/
theorem Run.broadcast (h : c.Run) {name : Nat} {s : Session α}
    (hs : c.world.sessions name = some s) (hmode : s.tx.mode = .readWrite) {network : Network}
    {copy stored : Node} (hrole : copy.kind.role = .source)
    (hstored : s.tx.view.nodes[copy.id]? = some stored) (hsource : stored.kind.role = .source)
    (hnone : ∀ v, .vector v ∈ c.made → v.origin ≠ copy.id)
    (hnetwork : s.tx.view.has (.network network.id))
    (hunused : s.tx.view.Unused .vector c.world.store.mint.ids (final (Holding.through copy
      network.addSourceToAll { tx := s.tx, mint := c.world.store.mint })).mint.ids)
    (hplain : (final (Holding.through copy network.addSourceToAll
      { tx := s.tx, mint := c.world.store.mint })).mint.clock.Plain) :
    let agents := (network.agentsIn s.tx.view).map (·.id)
    ∃ made wired, Holding.through copy network.addSourceToAll
        { tx := s.tx, mint := c.world.store.mint } = .ok made wired ∧
      network.Attaches stored made s.tx.view wired.tx.view ∧
      network.agentsIn wired.tx.view = network.agentsIn s.tx.view ∧
      (∃ degrees, network.degrees.Answers s.tx (.ok degrees) ∧
        network.degrees.Answers wired.tx (.ok degrees)) ∧
      ∀ remark c₁, c.Uses name (Holding.through copy network.addSourceToAll) remark c₁ →
        ∀ c₂, c₁.Fades c₂ → ∀ s' n b i r, c₂.Poised s' n b i r → n.id = copy.id →
        (∀ v ∈ made, s'.tx.view.has (.vector v.id)) →
        (r = none ∧ b.recipients = Behavior.plain.recipients ∨
          r = some (.ofType (.role .agent)) ∧ c.Agents agents) →
        n.Reaches b i r agents { tx := s'.tx, mint := c₂.world.store.mint } := by
  intro agents
  have hsound := h.sound
  have hkeyed := hsound.reachable.keyed_offered (.view hs)
  have hid : stored.id = copy.id := hkeyed.node_id hstored
  have hstored' : s.tx.view.nodes[stored.id]? = some stored := hid ▸ hstored
  have hindexed := hsound.indexed (.view hs)
  have hadd := ((@Network.curates_addSourceToAll (fun _ => False) network).through copy).asks
  rw [Holding.scene_final_through] at hunused hplain
  obtain ⟨made, wired, hrun, hattaches⟩ := Network.exists_attaches hkeyed hid hstored hrole hsource
    hnetwork hmode hunused hplain
  have hdestinations : made.map (·.destination) = agents := hattaches.destinations_eq
  have hdegrees := network.answers_outdegrees wired.tx
  rw [hattaches.degrees_eq hkeyed hstored' hsource hindexed
    ((hadd.of_ok hrun).indexed_view hindexed)] at hdegrees
  refine ⟨made, wired, hrun, hattaches, hattaches.agentsIn_eq hkeyed hstored' hsource,
    ⟨_, network.answers_outdegrees s.tx, hdegrees⟩, ?_⟩
  intro remark c₁ huses c₂ hfades s' n b i r hpoised hn hthere hrecipients
  have hafter : network.Attaches stored made s.tx.view (final (Holding.through copy
      network.addSourceToAll { tx := s.tx, mint := c.world.store.mint })).tx.view := by
    rw [hrun]
    exact hattaches
  have hsound₁ := hsound.leads (.single (.use huses))
  have hkeeps := (huses.keeps hsound hs hafter (hid ▸ hnone)).fades hsound₁ hfades
  have hsame : stored.id = n.id := hid.trans hn.symm
  rw [← hdestinations]
  refine Keeps.reaches (hsame ▸ hkeeps) (hsound₁.leads hfades.leads) hpoised
    (fun v hv => (hattaches.origin_eq hv).trans hsame) hattaches.alive hattaches.ordered
    ?_ hthere ?_
  · rw [hdestinations]
    exact Network.nodup_agentsIn hkeyed
  · refine hrecipients.imp_right (.imp_right fun hagents => ?_)
    rw [hdestinations]
    exact (huses.agents hsound hs hafter hstored' hsource hagents).fades hsound₁ hfades

/-- A network with two agents, and a source that has not been added yet. -/
def kiosk : Op Unit := do
  let network ← Network.create .base
  let _ ← network.welcome .agent
  let _ ← network.welcome .agent
  let _ ← Node.create .source

theorem curates_kiosk {held : Info → Prop} : Curates held kiosk := by
  refine .bind (Network.curates_create _) fun network => ?_
  refine .bind (network.curates_welcome _) fun _ => .bind (network.curates_welcome _) fun _ => ?_
  exact .bind (Node.curates_create _) fun _ => .pure _

namespace Kiosk

/-- The network. -/
def network : Network := { id := ⟨0⟩, kind := .base, creationTime := .ofMoment .first }

/-- The source. -/
def source : Node := { Node.numbered 3 with kind := .source }

/-- The kiosk before `source` is added. -/
def opened : World Unit :=
  ((World.init Mint.still).begin 0 .readWrite .serializable ()).use 0 kiosk fun _ _ => ()

/-- The `source` has been added. -/
def joined : World Unit :=
  opened.use 0 (Holding.through source network.addSourceToAll) fun _ _ => ()

/-- After that one of the agents has been killed. -/
def bereft : World Unit := joined.use 0 (Holding.on (Node.numbered 1) Node.kill) fun _ _ => ()

/-- There are news. -/
def informed : World Unit := bereft.use 0 (Info.create source.id "news" "rain") fun _ _ => ()

end Kiosk

open Kiosk in
/-- The world `opened` can come about. -/
theorem exists_alone_opened {c₀ : Chronicle Unit} (h : c₀.Alone 0)
    (hworld : c₀.world = (World.init Mint.still).begin 0 .readWrite .serializable ()) :
    ∃ c : Chronicle Unit, c.world = opened ∧ c.Alone 0 := by
  obtain ⟨made, -, hopened⟩ := h.use (@curates_kiosk fun _ => False).asks fun _ _ => ()
  refine ⟨_, ?_, hopened⟩
  rw [hworld, opened]

open Kiosk in
/-- So can what happens from `opened` to `informed`. -/
theorem exists_fades_informed {c : Chronicle Unit} (h : c.Alone 0) (hworld : c.world = opened) :
    ∃ c₁ c₂ : Chronicle Unit,
      c.Uses 0 (Holding.through source network.addSourceToAll) (fun _ _ => ()) c₁ ∧
        c₁.Fades c₂ ∧ c₂.world = informed := by
  obtain ⟨made₁, hadded, hjoined⟩ := h.use
    ((@Network.curates_addSourceToAll (fun _ => False) network).through source).asks fun _ _ => ()
  obtain ⟨made₂, hkilled, hbereft⟩ := hjoined.use
    ((@Node.curates_finish (fun _ => False) .dead).on (.numbered 1)).asks fun _ _ => ()
  obtain ⟨made₃, hcreated, -⟩ := hbereft.use
    (@Info.curates_create (fun _ => False) source.id "news" "rain").asks fun _ _ => ()
  refine ⟨_, _, hadded, Relation.ReflTransGen.tail (.single (Fading.use (.kill _) hkilled))
    (.use (.aside (Info.aside_create _ _ _)) hcreated), ?_⟩
  rw [hworld, informed, bereft, joined, Node.kill]

open Kiosk in
/-- The news still go to both agents. -/
theorem broadcast_informed : ∃ s, informed.sessions 0 = some s ∧ ∃ created scene,
    source.transmit .plain (some (.info (.numbered 6 3))) none
      { tx := s.tx, mint := informed.store.mint } = .ok created scene ∧
    created.map (·.destination) = [⟨1⟩, ⟨2⟩] := by
  obtain ⟨c, hworld, hopened⟩ :=
    exists_alone_opened (alone_begin Mint.still 0 .readWrite .serializable ()) rfl
  obtain ⟨c₁, c₂, hadded, hfades, hworld₂⟩ := exists_fades_informed hopened hworld
  obtain ⟨s, hs⟩ := Option.isSome_iff_exists.1
    (show (opened.sessions 0).isSome by decide +kernel)
  obtain ⟨s', hs'⟩ := Option.isSome_iff_exists.1
    (show (informed.sessions 0).isSome by decide +kernel)
  have hview : ∀ s ∈ opened.sessions 0, s.tx.mode = .readWrite ∧
      s.tx.view.nodes[source.id]?.map (·.kind.role) = some .source ∧
      s.tx.view.keys .vector = [] ∧ s.tx.view.has (.network network.id) ∧
      (network.agentsIn s.tx.view).map (·.id) = [⟨1⟩, ⟨2⟩] := by
    decide +kernel
  have hmint : ∀ s ∈ opened.sessions 0,
      let after := (final (Holding.through source network.addSourceToAll
        { tx := s.tx, mint := opened.store.mint })).mint
      s.tx.view.Unused .vector opened.store.mint.ids after.ids ∧ after.clock.Plain := by
    decide +kernel
  have hlater : ∀ s' ∈ informed.sessions 0, s'.tx.mode = .readWrite ∧
      s'.tx.view.has (.info ⟨6⟩) ∧
      s'.tx.view.Unused .transmission informed.store.mint.ids
        (final (source.transmit .plain (some (.info (.numbered 6 3))) none
          { tx := s'.tx, mint := informed.store.mint })).mint.ids := by
    decide +kernel
  have hkept : ∀ s ∈ opened.sessions 0, ∀ s' ∈ informed.sessions 0,
      ∀ vectors ∈ (outcome (Holding.through source network.addSourceToAll
        { tx := s.tx, mint := opened.store.mint })).toOption,
        ∀ v ∈ vectors, s'.tx.view.has (.vector v.id) := by
    decide +kernel
  obtain ⟨hmode, hrole, hvectors, hthere, hagents⟩ := hview s hs
  obtain ⟨hunused, hplain⟩ := hmint s hs
  obtain ⟨hmode', hinfo, hunused'⟩ := hlater s' hs'
  obtain ⟨stored, hstored, hsource⟩ := Option.map_eq_some_iff.1 hrole
  rw [← hworld] at hs hunused hplain
  rw [← hworld₂] at hs' hunused'
  have hnone : ∀ v, .vector v ∈ c.made → v.origin ≠ source.id := by
    intro v hv
    have hkey : Key.vector v.id ∈ s.tx.view.keys .vector :=
      Tables.mem_keys.2 ⟨rfl, hopened.has_key hs _ hv⟩
    rw [hvectors] at hkey
    cases hkey
  obtain ⟨vectors, wired, hrun, -, -, -, hreaches⟩ := hopened.run.broadcast hs hmode rfl hstored
    hsource hnone hthere hunused hplain
  have hpoised : Poised c₂ s' source .plain (.numbered 6 3) none :=
    ⟨⟨0, hs'⟩, hmode', rfl, hinfo, hunused'⟩
  rw [hworld] at hs hrun
  rw [hworld₂] at hs'
  have hwires := hkept s hs s' hs' vectors (by rw [hrun]; rfl)
  obtain ⟨created, scene, hsent, hends, -⟩ := (hreaches _ _ hadded _ hfades s' source .plain _ none
    hpoised rfl hwires (.inl ⟨rfl, rfl⟩)).all (by rw [hagents]; exact List.cons_ne_nil _ _)
  rw [hworld₂] at hsent
  refine ⟨s', hs', created, scene, hsent, ?_⟩
  have hdestinations := congrArg (List.map Prod.snd) hends
  rw [hagents, List.map_map] at hdestinations
  exact hdestinations

end Chronicle

end Propagation
