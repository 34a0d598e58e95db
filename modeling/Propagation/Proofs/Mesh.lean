import Propagation.Proofs.Wiring

/-!
# Networks in which all agents are joined

An agent that joins a fully connected network is joined, both ways, with every agent that is alive
there. So all agents of the network that are alive are joined, each with each other, and by one
vector for each direction: it is so in an empty network, it stays so when an agent joins that was in
no network, and also when nodes come or end while vectors and membership are left alone.

## Main definitions

* `Tables.Meshed`: all agents of a network that are alive are joined, each with each other.
* `Tables.Calm`: vectors and membership are left alone.
* `Tables.Joins`: an agent joined a network and got some vectors.

## Main statements

* `Tables.Meshed.calm`: a network stays fully connected where vectors and membership are left alone.
* `Tables.Joins.meshed`: so it does when an agent joins.
-/

namespace Propagation

/-! ## Tables -/

/-- The node `new` is a member of the same network as `old` in the same role, and is alive only if
`old` was. -/
structure Node.Stays (old new : Node) : Prop where
  network : new.network = old.network
  role : new.kind.role = old.kind.role
  alive : new.isAlive → old.isAlive

theorem Node.Stays.refl (n : Node) : n.Stays n := ⟨rfl, rfl, fun h => h⟩

theorem Node.Stays.trans {a b c : Node} (h : a.Stays b) (h' : b.Stays c) : a.Stays c where
  network := h'.network.trans h.network
  role := h'.role.trans h.role
  alive hc := h.alive (h'.alive hc)

namespace Tables

theorem nodes_congr {t u : Tables} {i : NodeId} (h : t.find? (.node i) = u.find? (.node i)) :
    t.nodes[i]? = u.nodes[i]? :=
  Option.map_injective (fun _ _ => Record.node.inj) h

theorem vectors_congr {t u : Tables} {i : VectorId}
    (h : t.find? (.vector i) = u.find? (.vector i)) : t.vectors[i]? = u.vectors[i]? :=
  Option.map_injective (fun _ _ => Record.vector.inj) h

/-- The node `i` is a member of some network. -/
def HasMember (t : Tables) (i : NodeId) : Prop := ∃ n, t.nodes[i]? = some n ∧ n.network.isSome

/-- All members in `t` are agents, and those of one network that are alive are joined, each with
each other, by one vector for each direction. -/
structure Meshed (t : Tables) : Prop where
  role : ∀ (i : NodeId) (n : Node), t.nodes[i]? = some n → n.network.isSome → n.kind.role = .agent
  /-- A vector leads from a member to another one. -/
  ends : ∀ (i : VectorId) (v : Vector), t.vectors[i]? = some v →
    v.origin ≠ v.destination ∧ t.HasMember v.origin ∧ t.HasMember v.destination
  once : ∀ (i j : VectorId) (v w : Vector), t.vectors[i]? = some v → t.vectors[j]? = some w →
    w.origin = v.origin → w.destination = v.destination → i = j
  joined : ∀ (i j : NodeId) (a b : Node), t.nodes[i]? = some a → t.nodes[j]? = some b → i ≠ j →
    a.isAlive → b.isAlive → a.network.isSome → b.network = a.network →
    ∃ (k : VectorId) (v : Vector), t.vectors[k]? = some v ∧ v.origin = i ∧ v.destination = j

theorem meshed_empty : ({} : Tables).Meshed where
  role i n h := by simp at h
  ends i v h := by simp at h
  once i j v w h := by simp at h
  joined i j a b h := by simp at h

/-- From `t` to `u`, vectors and membership are left alone. -/
structure Calm (t u : Tables) : Prop where
  vectors : ∀ i : VectorId, u.vectors[i]? = t.vectors[i]?
  stays : ∀ (i : NodeId) (n : Node), t.nodes[i]? = some n → ∃ n', u.nodes[i]? = some n' ∧ n.Stays n'
  /-- New nodes are in no network. -/
  comes : ∀ (i : NodeId) (n : Node), u.nodes[i]? = some n → t.nodes[i]? = none → n.network = none

namespace Calm

variable {t u v : Tables}

theorem of_eq (hnodes : ∀ i : NodeId, u.nodes[i]? = t.nodes[i]?)
    (hvectors : ∀ i : VectorId, u.vectors[i]? = t.vectors[i]?) : t.Calm u where
  vectors := hvectors
  stays i n hn := ⟨n, (hnodes i).trans hn, .refl n⟩
  comes i n hn hnone := by
    rw [hnodes, hnone] at hn
    cases hn

theorem refl (t : Tables) : t.Calm t := of_eq (fun _ => rfl) fun _ => rfl

theorem trans (h : t.Calm u) (h' : u.Calm v) : t.Calm v where
  vectors i := (h'.vectors i).trans (h.vectors i)
  stays i n hn := by
    obtain ⟨n', hn', hstays⟩ := h.stays i n hn
    obtain ⟨n'', hn'', hstays'⟩ := h'.stays i n' hn'
    exact ⟨n'', hn'', hstays.trans hstays'⟩
  comes i n hn hnone := by
    cases hu : u.nodes[i]? with
    | none => exact h'.comes i n hn hu
    | some n' =>
      obtain ⟨n'', hn'', hstays⟩ := h'.stays i n' hu
      rw [hn] at hn''
      cases hn''
      rw [hstays.network]
      exact h.comes i n' hu hnone

/-- A member in `u` was there in `t`. -/
theorem before (h : t.Calm u) {i : NodeId} {n : Node} (hn : u.nodes[i]? = some n)
    (hmember : n.network.isSome) : ∃ old, t.nodes[i]? = some old ∧ old.Stays n := by
  cases hold : t.nodes[i]? with
  | none =>
    rw [h.comes i n hn hold] at hmember
    cases hmember
  | some old =>
    obtain ⟨n', hn', hstays⟩ := h.stays i old hold
    rw [hn] at hn'
    cases hn'
    exact ⟨old, rfl, hstays⟩

theorem hasMember (h : t.Calm u) {i : NodeId} (hi : t.HasMember i) : u.HasMember i := by
  obtain ⟨n, hn, hmember⟩ := hi
  obtain ⟨n', hn', hstays⟩ := h.stays i n hn
  exact ⟨n', hn', hstays.network ▸ hmember⟩

theorem put_node {n : Node} (hold : ∀ old, t.nodes[n.id]? = some old → old.Stays n)
    (hnew : t.nodes[n.id]? = none → n.network = none) : t.Calm (t.put (.node n)) where
  vectors _ := rfl
  stays i old hi := by
    rw [nodes_put_node]
    by_cases hid : n.id = i
    · rw [if_pos hid]
      exact ⟨n, rfl, hold old (hid.symm ▸ hi)⟩
    · rw [if_neg hid]
      exact ⟨old, hi, .refl old⟩
  comes i n' hn' hnone := by
    rw [nodes_put_node] at hn'
    by_cases hid : n.id = i
    · rw [if_pos hid] at hn'
      cases hn'
      exact hnew (hid.symm ▸ hnone)
    · rw [if_neg hid, hnone] at hn'
      cases hn'

theorem put_other {r : Record} (hnode : r.key.entity ≠ .node) (hvector : r.key.entity ≠ .vector) :
    t.Calm (t.put r) := by
  cases r with
  | node n => exact absurd rfl hnode
  | vector v => exact absurd rfl hvector
  | _ => exact of_eq (fun _ => rfl) fun _ => rfl

end Calm

/-- A network stays fully connected in `u` where vectors and membership are left alone. -/
theorem Meshed.calm {t u : Tables} (h : t.Meshed) (hcalm : t.Calm u) : u.Meshed where
  role i n hn hmember := by
    obtain ⟨old, hold, hstays⟩ := hcalm.before hn hmember
    rw [hstays.role]
    exact h.role i old hold (hstays.network ▸ hmember)
  ends i v hv := by
    obtain ⟨hne, horigin, hdestination⟩ := h.ends i v (hcalm.vectors i ▸ hv)
    exact ⟨hne, hcalm.hasMember horigin, hcalm.hasMember hdestination⟩
  once i j v w hv hw := h.once i j v w (hcalm.vectors i ▸ hv) (hcalm.vectors j ▸ hw)
  joined i j a b ha hb hij halive halive' hmember hsame := by
    obtain ⟨a', ha', hstays⟩ := hcalm.before ha hmember
    obtain ⟨b', hb', hstays'⟩ := hcalm.before hb (hsame ▸ hmember)
    have hsame' : b'.network = a'.network := by rw [← hstays.network, ← hstays'.network, hsame]
    obtain ⟨k, v, hv, hends⟩ := h.joined i j a' b' ha' hb' hij (hstays.alive halive)
      (hstays'.alive halive') (hstays.network ▸ hmember) hsame'
    exact ⟨k, v, (hcalm.vectors k).trans hv, hends⟩

end Tables

/-! ## Joining -/

namespace NetworkKind

theorem mem_wiring_fullyConnected {earlier : List NodeId} {new : NodeId} {p : NodeId × NodeId} :
    p ∈ fullyConnected.wiring earlier new ↔
      ∃ other ∈ earlier, p = (other, new) ∨ p = (new, other) := by
  simp only [wiring, List.mem_flatMap, List.mem_pair]

/-- No two vectors of an agent `new` that joins have the same ends. -/
theorem nodup_wiring_fullyConnected {earlier : List NodeId} {new : NodeId}
    (hearlier : earlier.Nodup) (hnew : new ∉ earlier) :
    (fullyConnected.wiring earlier new).Nodup := by
  rw [wiring, List.nodup_flatMap]
  constructor
  · intro other hother
    have hne : other ≠ new := fun h => hnew (h ▸ hother)
    simp [hne]
  · refine hearlier.pairwise_of_forall_ne fun a ha b hb hab => ?_
    have hane : a ≠ new := fun h => hnew (h ▸ ha)
    have hbne : b ≠ new := fun h => hnew (h ▸ hb)
    simp [Function.onFun, hbne, hane.symm, hab.symm]

end NetworkKind

namespace Tables

/-- From `t` to `u`, the node `agent` joined `network` and got the vectors in `made`. -/
structure Joins (network : Network) (agent : Node) (made : List Vector) (t u : Tables) : Prop where
  stored : t.nodes[agent.id]? = some agent
  nodes : ∀ i : NodeId, u.nodes[i]? =
    if agent.id = i then some { agent with network := some network.id } else t.nodes[i]?
  vectors : ∀ (i : VectorId) (v : Vector),
    u.vectors[i]? = some v ↔ (v ∈ made ∧ v.id = i) ∨ t.vectors[i]? = some v
  ends : made.map (fun v => (v.origin, v.destination)) = network.endsIn t agent.id

section Join

variable {network : Network} {agent : Node} {made : List Vector} {t u : Tables}

namespace Joins

variable (h : t.Joins network agent made u)
include h

theorem mem_endsIn {v : Vector} (hv : v ∈ made) :
    (v.origin, v.destination) ∈ network.endsIn t agent.id := by
  rw [← h.ends]
  exact List.mem_map_of_mem hv

theorem vector_of_mem_endsIn {p : NodeId × NodeId} (hp : p ∈ network.endsIn t agent.id) :
    ∃ (k : VectorId) (v : Vector), u.vectors[k]? = some v ∧ v.origin = p.1 ∧
      v.destination = p.2 := by
  rw [← h.ends] at hp
  obtain ⟨v, hv, rfl⟩ := List.mem_map.1 hp
  exact ⟨v.id, v, (h.vectors v.id v).2 (.inl ⟨hv, rfl⟩), rfl, rfl⟩

theorem hasMember_agent : u.HasMember agent.id :=
  ⟨_, (h.nodes agent.id).trans (if_pos rfl), rfl⟩

theorem hasMember {i : NodeId} (hi : t.HasMember i) : u.HasMember i := by
  by_cases hagent : agent.id = i
  · exact hagent ▸ h.hasMember_agent
  · obtain ⟨n, hn, hmember⟩ := hi
    exact ⟨n, (h.nodes i).trans ((if_neg hagent).trans hn), hmember⟩

end Joins

/-- An agent that is in no network is not among those of a network. -/
theorem notMem_agentsIn (hkeyed : t.Keyed) (hstored : t.nodes[agent.id]? = some agent)
    (hfree : agent.network = none) : agent.id ∉ (network.agentsIn t).map (·.id) := by
  intro hmem
  obtain ⟨n, hn, hid⟩ := List.mem_map.1 hmem
  obtain ⟨hn, hnetwork, -, -⟩ := (Network.mem_agentsIn hkeyed).1 hn
  rw [hid, hstored] at hn
  cases hn
  rw [hfree] at hnetwork
  cases hnetwork

section FullyConnected

variable (hjoins : t.Joins network agent made u) (hkind : network.kind = .fullyConnected)
include hjoins hkind

/-- A vector in `made` leads between `agent` and one that was there. -/
theorem Joins.other {v : Vector} (hv : v ∈ made) : ∃ n ∈ network.agentsIn t,
    v.origin = n.id ∧ v.destination = agent.id ∨ v.origin = agent.id ∧ v.destination = n.id := by
  have hmem := hjoins.mem_endsIn hv
  rw [Network.endsIn, hkind, NetworkKind.mem_wiring_fullyConnected] at hmem
  obtain ⟨i, hi, hends⟩ := hmem
  obtain ⟨n, hn, rfl⟩ := List.mem_map.1 hi
  simp only [Prod.mk.injEq] at hends
  exact ⟨n, hn, hends⟩

variable (hkeyed : t.Keyed)
include hkeyed

/-- The node `agent` is joined, both ways, with each agent that was there. -/
theorem Joins.both {i : NodeId} {n : Node} (hn : t.nodes[i]? = some n)
    (hnetwork : n.network = some network.id) (hrole : n.kind.role = .agent) (halive : n.isAlive) :
    (∃ (k : VectorId) (v : Vector), u.vectors[k]? = some v ∧
      v.origin = i ∧ v.destination = agent.id) ∧
    ∃ (k : VectorId) (v : Vector), u.vectors[k]? = some v ∧
      v.origin = agent.id ∧ v.destination = i := by
  have hid : n.id = i := hkeyed.node_id hn
  have hmem : i ∈ (network.agentsIn t).map (·.id) :=
    List.mem_map.2
      ⟨n, (Network.mem_agentsIn hkeyed).2 ⟨hid.symm ▸ hn, hnetwork, hrole, halive⟩, hid⟩
  have hends : ∀ p, p = (i, agent.id) ∨ p = (agent.id, i) → p ∈ network.endsIn t agent.id := by
    intro p hp
    rw [Network.endsIn, hkind, NetworkKind.mem_wiring_fullyConnected]
    exact ⟨i, hmem, hp⟩
  exact ⟨hjoins.vector_of_mem_endsIn (hends _ (.inl rfl)),
    hjoins.vector_of_mem_endsIn (hends _ (.inr rfl))⟩

/-- A network stays fully connected when `agent` joins, which is in no network. -/
theorem Joins.meshed (h : t.Meshed) (hrole : agent.kind.role = .agent)
    (hfree : agent.network = none) : u.Meshed := by
  have hout : agent.id ∉ (network.agentsIn t).map (·.id) :=
    notMem_agentsIn hkeyed hjoins.stored hfree
  have hapart : ∀ n ∈ network.agentsIn t, n.id ≠ agent.id := by
    rintro n hn hid
    exact hout (hid ▸ List.mem_map_of_mem hn)
  have hmembers : ∀ n ∈ network.agentsIn t, u.HasMember n.id := by
    intro n hn
    obtain ⟨hn, hnetwork, -, -⟩ := (Network.mem_agentsIn hkeyed).1 hn
    exact hjoins.hasMember ⟨n, hn, by rw [hnetwork]; rfl⟩
  have hends : (made.map fun v => (v.origin, v.destination)).Nodup := by
    rw [hjoins.ends, Network.endsIn, hkind]
    exact NetworkKind.nodup_wiring_fullyConnected (Network.nodup_agentsIn hkeyed) hout
  -- no vector that was there has the ends of a new one, since the agent was no member
  have hold : ∀ v ∈ made, ∀ (i : VectorId) w, t.vectors[i]? = some w →
      ¬ (w.origin = v.origin ∧ w.destination = v.destination) := by
    rintro v hv i w hw ⟨horigin, hdestination⟩
    obtain ⟨-, ⟨a, ha, hamember⟩, ⟨b, hb, hbmember⟩⟩ := h.ends i w hw
    obtain ⟨n, -, ⟨-, hagent⟩ | ⟨hagent, -⟩⟩ := hjoins.other hkind hv
    · rw [hdestination, hagent, hjoins.stored] at hb
      cases hb
      rw [hfree] at hbmember
      cases hbmember
    · rw [horigin, hagent, hjoins.stored] at ha
      cases ha
      rw [hfree] at hamember
      cases hamember
  refine ⟨fun i n hn hmember => ?_, fun i v hv => ?_, fun i j v w hv hw ho hd => ?_,
    fun i j a b ha hb hij halive halive' hmember hsame => ?_⟩
  · rw [hjoins.nodes] at hn
    split at hn
    · cases hn
      exact hrole
    · exact h.role i n hn hmember
  · rcases (hjoins.vectors i v).1 hv with ⟨hmade, -⟩ | hv
    · obtain ⟨n, hn, ⟨ho, hd⟩ | ⟨ho, hd⟩⟩ := hjoins.other hkind hmade
      · rw [ho, hd]
        exact ⟨hapart n hn, hmembers n hn, hjoins.hasMember_agent⟩
      · rw [ho, hd]
        exact ⟨(hapart n hn).symm, hjoins.hasMember_agent, hmembers n hn⟩
    · obtain ⟨hne, ho, hd⟩ := h.ends i v hv
      exact ⟨hne, hjoins.hasMember ho, hjoins.hasMember hd⟩
  · rcases (hjoins.vectors i v).1 hv with ⟨hmade, rfl⟩ | hv
    · rcases (hjoins.vectors j w).1 hw with ⟨hmade', rfl⟩ | hw
      · have hsame : v = w := List.inj_on_of_nodup_map hends hmade hmade' (by rw [ho, hd])
        rw [hsame]
      · exact absurd ⟨ho, hd⟩ (hold v hmade j w hw)
    · rcases (hjoins.vectors j w).1 hw with ⟨hmade, rfl⟩ | hw
      · exact absurd ⟨ho.symm, hd.symm⟩ (hold w hmade i v hv)
      · exact h.once i j v w hv hw ho hd
  · rw [hjoins.nodes] at ha hb
    split at ha
    · rename_i hi
      rw [if_neg (hi ▸ hij)] at hb
      cases ha
      subst hi
      have hrole' := h.role j b hb (hsame ▸ rfl)
      exact (hjoins.both hkind hkeyed hb hsame hrole' halive').2
    · split at hb
      · rename_i hj
        cases hb
        subst hj
        have hrole' := h.role i a ha hmember
        exact (hjoins.both hkind hkeyed ha hsame.symm hrole' halive).1
      · obtain ⟨k, v, hv, hends⟩ := h.joined i j a b ha hb hij halive halive' hmember hsame
        exact ⟨k, v, (hjoins.vectors k v).2 (.inr hv), hends⟩

end FullyConnected

end Join

end Tables

end Propagation
