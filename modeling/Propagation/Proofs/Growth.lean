import Propagation.Proofs.Calm
import Propagation.Proofs.Chronicle
import Propagation.Proofs.Degrees
import Propagation.Proofs.Lineage
import Propagation.Proofs.Rejoining

/-!
# Networks that grow by one agent at a time

An agent is created and added to a network, then the next one, and so on. Agents that are added in
this way were also created in this order, at times that increase. So the network lists them in the
order in which they were added, and when it asks for the first or the last agent, it is told the one
that was added first or last. The vectors of a chain are therefore those from each agent to the next
one, and the vectors of a star those between the first agent and each other one.

Each call does the same: it finds an identifier for the agent that is free, makes it a member, and
makes the vectors that it answers. What a network has got since it was made is kept by one call, and
so by all.

## Main definitions

* `Network.welcome`: create an agent and add it at once.
* `Network.Welcomed`, `Network.Welcomes`: what one call does, and what several do.
* `Network.Grown`: the agents that a network has got and their vectors.
* `Network.Vacant`: a network without members.

## Main statements

* `NetworkKind.wired_chain`, `NetworkKind.wired_star`: the ends of the vectors.
* `NetworkKind.outdegrees_chain`, `NetworkKind.outdegrees_star`: how many start at each agent.
* `Network.Ready.welcome`, `Network.Grown.welcomed`: one more agent.
* `Network.Grown.answers_degrees`, `Network.Grown.answers_summary`: what is counted.
* `Chronicle.Run.grown_welcome`: chains and stars of any number of agents.
-/

namespace Propagation

/-! ## The ends of the vectors -/

/-- The ends of the vector `v`, its origin first. -/
def Vector.ends (v : Vector) : NodeId × NodeId := (v.origin, v.destination)

namespace NetworkKind

variable {kind : NetworkKind}

/-- In a chain each agent is led to by the one before it. -/
theorem wired_chain (first : Node) (later : List Node) :
    chain.wired (fun before => before) (first :: later) =
      [] :: (((first :: later).map (·.id)).zip (later.map (·.id))).map fun p => [p] := by
  refine List.ext_getElem (by simp [wired]) fun k _ _ => ?_
  cases k <;> simp [wired, wiring, List.getLast?_take]

theorem flatten_wired_chain (first : Node) (later : List Node) :
    (chain.wired (fun before => before) (first :: later)).flatten =
      ((first :: later).map (·.id)).zip (later.map (·.id)) := by
  rw [wired_chain, List.flatten_cons, List.nil_append, ← List.flatMap_def, List.flatMap_singleton']

/-- In a star each agent is joined with the first one, both ways. -/
theorem wired_star (first : Node) (later : List Node) :
    star.wired (fun before => before) (first :: later) =
      [] :: later.map fun n => [(first.id, n.id), (n.id, first.id)] := by
  refine List.ext_getElem (by simp [wired]) fun k _ _ => ?_
  cases k <;> simp [wired, wiring]

/-- The vectors of a network lead from agents to agents. -/
theorem mem_wired {agents : List Node} {p : NodeId × NodeId}
    (hp : p ∈ (kind.wired (fun before => before) agents).flatten) :
    p.1 ∈ agents.map (·.id) ∧ p.2 ∈ agents.map (·.id) := by
  obtain ⟨l, hl, hp⟩ := List.mem_flatten.1 hp
  obtain ⟨k, hk, rfl⟩ := List.mem_mapIdx.1 hl
  have hnew : agents[k].id ∈ agents.map (·.id) := List.mem_map_of_mem (List.getElem_mem hk)
  have hearlier : ∀ i ∈ (agents.take k).map (·.id), i ∈ agents.map (·.id) :=
    fun i hi => List.map_subset _ (List.take_subset k agents) hi
  rcases mem_wiring hp with ⟨hother, hself⟩ | ⟨hself, hother⟩
  · exact ⟨hearlier _ hother, hself ▸ hnew⟩
  · exact ⟨hself ▸ hnew, hearlier _ hother⟩

section Degrees

variable {first : Node} {later : List Node} (hnodup : ((first :: later).map (·.id)).Nodup)
include hnodup

/-- From each agent of a chain but the last one, one vector leads on. -/
theorem outdegrees_chain :
    ((first :: later).map fun n =>
      (chain.wired (fun before => before) (first :: later)).flatten.countP (·.1 = n.id)) =
      List.replicate later.length 1 ++ [0] := by
  obtain ⟨init, last, hsplit⟩ : ∃ init last, first :: later = init ++ [last] :=
    ⟨_, _, (List.dropLast_append_getLast (List.cons_ne_nil _ _)).symm⟩
  have hlength : init.length = later.length := by simpa using (congrArg List.length hsplit).symm
  have hflat : (chain.wired (fun before => before) (first :: later)).flatten =
      (init.map (·.id)).zip (later.map (·.id)) := by
    rw [flatten_wired_chain, hsplit, List.map_append, ← List.append_nil (later.map (·.id)),
      List.zip_append (by simpa using hlength)]
    simp
  -- the vectors start at all agents but the last one
  have hstarts : (chain.wired (fun before => before) (first :: later)).flatten.map Prod.fst =
      init.map (·.id) := by
    rw [hflat, List.map_fst_zip (by simp [hlength])]
  have hcount (i : NodeId) : (chain.wired (fun before => before) (first :: later)).flatten.countP
      (·.1 = i) = (init.map (·.id)).count i := by
    rw [← hstarts, List.count, List.countP_map]
    exact List.countP_congr fun p _ => by simp
  simp only [hcount]
  rw [hsplit, List.map_append, List.nodup_append] at hnodup
  rw [hsplit, List.map_append, List.map_singleton, ← hlength]
  congr 1
  · refine List.eq_replicate_iff.2 ⟨List.length_map _, List.forall_mem_map.2 fun n hn => ?_⟩
    exact List.count_eq_one_of_mem hnodup.1 (List.mem_map_of_mem hn)
  · refine congrArg (fun k => [k]) (List.count_eq_zero.2 fun hlast => ?_)
    exact hnodup.2.2 _ hlast _ (.head _) rfl

/-- From the first agent of a star a vector leads to each other one, and one from there back. -/
theorem outdegrees_star :
    ((first :: later).map fun n =>
      (star.wired (fun before => before) (first :: later)).flatten.countP (·.1 = n.id)) =
      later.length :: List.replicate later.length 1 := by
  obtain ⟨hfirst, hlater⟩ := List.nodup_cons.1 hnodup
  have hcount : ∀ (l : List Node) (i : NodeId),
      (l.map fun n => [(first.id, n.id), (n.id, first.id)]).flatten.countP (·.1 = i) =
        (if first.id = i then l.length else 0) + (l.map (·.id)).count i := by
    intro l i
    induction l with
    | nil => simp
    | cons n l ih =>
      simp [ih, List.countP_cons, List.count_cons]
      grind
  rw [wired_star, List.flatten_cons, List.nil_append]
  simp only [hcount]
  rw [List.map_cons, if_pos rfl, List.count_eq_zero.2 hfirst, Nat.add_zero]
  congr 1
  refine List.eq_replicate_iff.2 ⟨List.length_map _, List.forall_mem_map.2 fun n hn => ?_⟩
  have hne : first.id ≠ n.id := by
    intro heq
    exact hfirst (List.mem_map.2 ⟨n, hn, heq.symm⟩)
  rw [if_neg hne, List.count_eq_one_of_mem hlater (List.mem_map_of_mem hn)]

end Degrees

end NetworkKind

/-! ## One more agent -/

/-- To `create` a node succeeds in a transaction that may write if the identifier is free. -/
theorem Node.create_ok {kind : NodeKind} {tx : Transaction} {mint : Mint}
    (hmode : tx.mode = .readWrite) (hfree : tx.view.has (.node (fresh kind mint).1.id) = false) :
    create kind { tx, mint } = .ok (fresh kind mint).1
      { tx := tx.store (.node (fresh kind mint).1), mint := mint.spend .node } := by
  have haccept : (Record.node (fresh kind mint).1).accept tx.view = .ok () :=
    Record.accept_of_free hfree (List.forall_mem_nil _)
  have hinsert : (fresh kind mint).1.insert tx =
      .ok (fresh kind mint).1 (tx.store (.node (fresh kind mint).1)) :=
    Op.bind_of_ok (Access.insert_of_accept haccept hmode)
  exact Op.access_of_ok (s := { tx, mint := mint.spend .node }) hinsert

/-- To `create` a node takes a time and an identifier, whether or not it succeeds. -/
theorem Node.mint_create (kind : NodeKind) (s : Scene) :
    (final (create kind s)).mint = s.mint.spend .node := by
  rw [create, Op.bind_of_ok (Op.minting_apply _ _), Op.final_access]
  rfl

namespace Network

/-- Create an agent and add it to `network` at once. -/
def welcome (network : Network) (kind : NodeKind) : Op (Node × List Vector) := do
  let agent ← Node.create kind
  let made ← Holding.through agent network.addAgent
  return (agent, made)

variable {network : Network}

theorem curates_welcome {held : Info → Prop} (kind : NodeKind) :
    Curates held (network.welcome kind) :=
  .bind (Node.curates_create kind) fun agent =>
    .bind (network.curates_addAgent.through agent) fun _ => .pure _

/-- The nodes `agents` that stand in the order of their creation are the agents of a network in this
order. -/
theorem agentsIn_eq {t : Tables} (hkeyed : t.Keyed) {agents : List Node}
    (hordered : agents.Pairwise fun a b => a.chronological b = .lt)
    (hnodup : (agents.map (·.id)).Nodup)
    (hmem : ∀ n, n ∈ network.agentsIn t ↔ n ∈ agents) : network.agentsIn t = agents := by
  have hle : agents.Pairwise fun a b => (Node.chronological a b).isLE :=
    hordered.imp fun h => by rw [h]; rfl
  rw [agentsIn_eq_sort hkeyed hnodup hmem]
  exact (eq_sort_of_perm (.refl _) hle fun a ha b hb =>
    NetworkKind.eq_of_chronological hnodup ha hb).symm

/-- A new node `a` that is no member leaves the agents of a network as they are. -/
theorem agentsIn_put_of_free {t : Tables} (hkeyed : t.Keyed) {a : Node}
    (hfree : t.has (.node a.id) = false) (hnetwork : a.network ≠ some network.id) :
    network.agentsIn (t.put (.node a)) = network.agentsIn t := by
  refine agentsIn_put hkeyed (fun n hn hid => ?_) fun hmember => absurd hmember hnetwork
  exact Tables.nodes_ne_of_free (hid ▸ hfree) n ((mem_agentsIn hkeyed).1 hn).1

/-- The `degrees` of a network are the numbers of vectors that leave its agents. -/
theorem answers_outdegrees (network : Network) (tx : Transaction) :
    network.degrees.Answers tx (.ok ((network.agentsIn tx.view).map fun n =>
      (tx.view.selectVectors (Side.outgoing.query n.id)).length)) := by
  have hagents : network.agents.Answers tx (.ok (network.agentsIn tx.view)) :=
    Access.answers_nodes _ tx
  refine hagents.bind_of_ok fun tx' hnoted => .mapM _ fun n _ tx'' hnoted' => ?_
  rw [← (hnoted.trans hnoted').view_eq]
  exact Access.answers_countVectors _ tx''

/-! ### One call -/

/-- In the scene, agents can be created and added to the network until the mint is at `last`: no
node and no vector has an identifier that is given out on the way. -/
structure Ready (network : Network) (last : IdSource) (s : Scene) : Prop where
  mode : s.tx.mode = .readWrite
  keyed : s.tx.view.Keyed
  nodes : s.tx.view.Unused .node s.mint.ids last
  vectors : s.tx.view.Unused .vector s.mint.ids last
  there : s.tx.view.has (.network network.id)

/-- An agent of this `kind` was created and added to `network`. What is answered are the vectors
that this has made, and nothing else was stored but the agent. -/
structure Welcomed (network : Network) (last : IdSource) (kind : NodeKind)
    (j : Node × List Vector) (s s' : Scene) : Prop where
  run : network.welcome kind s = .ok j s'
  agent : j.1 = (Node.fresh kind s.mint).1
  free : s.tx.view.has (.node j.1.id) = false
  joins : (s.tx.view.put (.node j.1)).Joins network j.1 j.2 s'.tx.view
  vectorsFree : ∀ v ∈ j.2, s.tx.view.has (.vector v.id) = false
  nodup : (j.2.map (·.id)).Nodup
  mint : (s.mint.spend .node).Precedes s'.mint
  ready : network.Ready last s'

variable {last : IdSource}

theorem Welcomed.kind_eq {kind : NodeKind} {j : Node × List Vector} {s s' : Scene}
    (h : network.Welcomed last kind j s s') : j.1.kind = kind := by
  rw [h.agent]
  rfl

/-- To `welcome` an agent begins by drawing its identifier. -/
theorem prefix_welcome (kind : NodeKind) (tx : Transaction) (mint : Mint) :
    (mint.spend .node).ids.given <+:
      (final (network.welcome kind { tx, mint })).mint.ids.given := by
  have hrest (a : Node) : Advances (Holding.through a network.addAgent >>= fun made =>
      (pure (a, made) : Op _)) :=
    ((@curates_addAgent (fun _ => False) network).through a |>.bind fun _ => .pure _).advances
  have hfirst : (final (Node.create kind { tx, mint })).mint.ids.given <+: _ :=
    (Advances.precedes_bind (Node.create kind) hrest { tx, mint }).given
  rwa [Node.mint_create] at hfirst

namespace Ready

variable {tx : Transaction} {mint : Mint} {a : Node} (h : network.Ready last { tx, mint })
include h

/-- Agents can still be added once the node `a` is stored under the first identifier. -/
theorem store (hgiven : (mint.spend .node).ids.given = mint.ids.given ++ [a.id.number])
    (hspent : (mint.spend .node).ids.given <+: last.given) :
    network.Ready last { tx := tx.store (.node a), mint := mint.spend .node } where
  mode := h.mode
  keyed := h.keyed.put _
  nodes := h.nodes.put hgiven hspent
  vectors := h.vectors.put (r := .node a) hgiven hspent
  there := Tables.has_put_of_has h.there _

/-- Agents can still be added once the node `a` is a member and has its vectors, one for each pair
in `ends`. -/
theorem wire (ha : tx.view.has (.node a.id)) {ends : List (NodeId × NodeId)}
    (hlast : (Vector.freshAll ends mint).2.ids.given <+: last.given) :
    network.Ready last
      { tx := (network.enroll a (tx.noteScan .node)).storeAll (Vector.freshAll ends mint).1
        mint := (Vector.freshAll ends mint).2 } where
  mode := (Transaction.mode_storeAll _ _).trans h.mode
  keyed := Transaction.keyed_storeAll (h.keyed.put (.node (network.member a))) _
  nodes := Transaction.unused_storeAll (@unused_enroll network a (tx.noteScan .node) _ _ _ h.nodes ha) hlast
  vectors :=
    Transaction.unused_storeAll (@unused_enroll network a (tx.noteScan .node) _ _ _ h.vectors ha) hlast
  there := Transaction.has_storeAll.2 (.inr (Tables.has_put_of_has h.there _))

end Ready

/-- Where agents can be added until `last`, one is added, and then agents can be added until `last`.
-/
theorem Ready.welcome {kind : NodeKind} {s : Scene} (h : network.Ready last s)
    (hrole : kind.role = .agent)
    (hlast : (final (network.welcome kind s)).mint.ids.given <+: last.given) :
    ∃ j s', network.Welcomed last kind j s s' := by
  obtain ⟨tx, mint⟩ := s
  let a := (Node.fresh kind mint).1
  let tx₁ := tx.store (.node a)
  -- the identifier of the agent is the first one that is drawn
  have hgiven : (mint.spend .node).ids.given = mint.ids.given ++ [a.id.number] :=
    Node.given_fresh kind mint
  have hspent : (mint.spend .node).ids.given <+: last.given :=
    (network.prefix_welcome kind tx mint).trans hlast
  have hfree : tx.view.has (.node a.id) = false :=
    h.nodes.free (k := .node a.id) hgiven hspent (.head _)
  have hcreate : Node.create kind { tx, mint } = .ok a { tx := tx₁, mint := mint.spend .node } :=
    Node.create_ok h.mode hfree
  have hrun : network.welcome kind { tx, mint } =
      (Holding.through a network.addAgent >>= fun made => (pure (a, made) : Op _))
        { tx := tx₁, mint := mint.spend .node } := Op.bind_of_ok hcreate
  have hready : network.Ready last { tx := tx₁, mint := mint.spend .node } :=
    h.store hgiven hspent
  have hstored : tx₁.view.nodes[a.id]? = some a := by
    rw [Transaction.view_store, Tables.nodes_put_node, if_pos rfl]
  have hadvances := ((@curates_addAgent (fun _ => False) network).through a).advances
    { tx := tx₁, mint := mint.spend .node }
  rw [hrun, Op.final_map, Holding.scene_final_through] at hlast
  -- what is left is to wire it, and the vectors take the identifiers that come next
  have hmade := hready.vectors.of_prefix
    (network.draws_addAgent { copy := a, scene := { tx := tx₁, mint := mint.spend .node } }) hlast
  have hadd := addAgent_ok hrole rfl hstored hready.there hready.mode hready.keyed hmade
  rw [hadd] at hmade hlast
  rw [Holding.through_of_ok hadd] at hadvances
  exact ⟨_, _, {
    run := hrun.trans (Op.bind_of_ok (Holding.through_of_ok hadd))
    agent := rfl
    free := hfree
    joins := (Transaction.joins_storeAll hstored hmade).view
    vectorsFree := fun v hv =>
      Vector.free_of_mem_freshAll (hmade.anti fun k _ hk => Tables.has_put_of_has hk _) hv
    nodup := Vector.nodup_freshAll hmade
    mint := hadvances
    ready := hready.wire (Tables.has_node_iff.2 ⟨a, hstored⟩) hlast }⟩

/-! ### Several calls -/

/-- The agents in the list were created, each was added to `network` at once, and then came the
next. -/
inductive Welcomes (network : Network) (last : IdSource) :
    List (Node × List Vector) → Scene → Scene → Prop
  | nil (s : Scene) : Welcomes network last [] s s
  | cons {kind : NodeKind} {j : Node × List Vector} {later : List (Node × List Vector)}
    {s s' s'' : Scene} (h : network.Welcomed last kind j s s')
    (h' : Welcomes network last later s' s'') : Welcomes network last (j :: later) s s''

theorem Welcomes.precedes {joined : List (Node × List Vector)} {s s' : Scene}
    (h : network.Welcomes last joined s s') : s.mint.Precedes s'.mint := by
  induction h with
  | nil s => exact .refl _
  | cons h _ ih => exact ((Mint.precedes_spend .node _).trans h.mint).trans ih

theorem Welcomes.ready {joined : List (Node × List Vector)} {s s' : Scene}
    (h : network.Welcomes last joined s s') (hs : network.Ready last s) :
    network.Ready last s' := by
  induction h with
  | nil s => exact hs
  | cons h _ ih => exact ih h.ready

/-- Where agents can be added, agents of these `kinds` are added one after the other. -/
theorem Ready.welcomes {kinds : List NodeKind} {s : Scene} (h : network.Ready last s)
    (hrole : ∀ kind ∈ kinds, kind.role = .agent)
    (hlast : (final (kinds.mapM network.welcome s)).mint.ids.given <+: last.given) :
    ∃ joined s', kinds.mapM network.welcome s = .ok joined s' ∧
      network.Welcomes last joined s s' ∧ joined.map (·.1.kind) = kinds := by
  induction kinds generalizing s with
  | nil => exact ⟨[], s, rfl, .nil s, rfl⟩
  | cons kind kinds ih =>
    obtain ⟨hkind, hkinds⟩ := List.forall_mem_cons.1 hrole
    have hlater (j : Node × List Vector) :
        Advances (kinds.mapM network.welcome >>= fun later => (pure (j :: later) : Op _)) :=
      (Curates.bind (.mapM (@curates_welcome network fun _ => False) kinds)
        fun _ => .pure _).advances
    rw [List.mapM_cons] at hlast ⊢
    obtain ⟨j, s₁, hj⟩ := h.welcome hkind
      ((Advances.precedes_bind (network.welcome kind) hlater s).given.trans hlast)
    rw [Op.bind_of_ok hj.run] at hlast ⊢
    rw [Op.final_map] at hlast
    obtain ⟨joined, s₂, hrun, hwelcomes, hmap⟩ := ih hj.ready hkinds hlast
    refine ⟨j :: joined, s₂, Op.bind_of_ok hrun, .cons hj hwelcomes, ?_⟩
    rw [List.map_cons, hj.kind_eq, hmap]

/-- A network has got these agents, each with these vectors, since `t` was what there was. -/
structure Grown (network : Network) (t : Tables) (joined : List (Node × List Vector))
    (s : Scene) : Prop where
  agents : ∀ j ∈ joined, j.1.kind.role = .agent ∧ j.1.isAlive ∧ t.has (.node j.1.id) = false
  nodup : (joined.map (·.1.id)).Nodup
  dealt : s.mint.clock.Dealt (joined.map (·.1.creationTime))
  nodes : ∀ (i : NodeId) n, s.tx.view.nodes[i]? = some n ↔
    (∃ j ∈ joined, network.member j.1 = n ∧ n.id = i) ∨ t.nodes[i]? = some n
  vectors : ∀ (i : VectorId) v, s.tx.view.vectors[i]? = some v ↔
    (v ∈ joined.flatMap (·.2) ∧ v.id = i) ∨ t.vectors[i]? = some v
  vectorsFree : ∀ v ∈ joined.flatMap (·.2), t.has (.vector v.id) = false
  vectorsNodup : ((joined.flatMap (·.2)).map (·.id)).Nodup
  ends : joined.map (·.2.map Vector.ends) =
    network.kind.wired (fun before => before) (joined.map (·.1))

namespace Grown

variable {t : Tables} (houtside : ∀ (i : NodeId) n, t.nodes[i]? = some n →
  n.network ≠ some network.id) {joined : List (Node × List Vector)} {s s' : Scene}
  (h : network.Grown t joined s)
include h houtside

/-- The agents of the network are those in `joined`, in the order in which they were added. -/
theorem agentsIn_eq (hkeyed : s.tx.view.Keyed) (hplain : s.mint.clock.Plain) :
    network.agentsIn s.tx.view = joined.map fun j => network.member j.1 := by
  refine Network.agentsIn_eq hkeyed ?_ ?_ fun n => ?_
  · have hincreasing := List.pairwise_map.1 (h.dealt.increasing hplain)
    refine List.pairwise_map.2 (hincreasing.imp fun {j j'} hlt => ?_)
    have htext : (network.member j.1).creationTime.text <
        (network.member j'.1).creationTime.text := hlt
    exact Timestamp.compareLex_of_text_lt htext
  · rw [List.map_map]
    exact h.nodup
  · rw [mem_agentsIn hkeyed, h.nodes, List.mem_map]
    constructor
    · rintro ⟨⟨j, hj, hmember, -⟩ | hold, hnetwork, -⟩
      · exact ⟨j, hj, hmember⟩
      · exact absurd hnetwork (houtside _ n hold)
    · rintro ⟨j, hj, rfl⟩
      obtain ⟨hrole, halive, -⟩ := h.agents j hj
      exact ⟨.inl ⟨j, hj, rfl, rfl⟩, rfl, hrole, halive⟩

omit houtside in
/-- What was there in `t` is there. -/
theorem has {k : Key} (hk : k.entity = .node ∨ k.entity = .vector) (hhas : t.has k) :
    s.tx.view.has k := by
  cases k with
  | node i =>
    obtain ⟨n, hn⟩ := Tables.has_node_iff.1 hhas
    exact Tables.has_node_iff.2 ⟨n, (h.nodes i n).2 (.inr hn)⟩
  | vector i =>
    obtain ⟨v, hv⟩ := Tables.has_vector_iff.1 hhas
    exact Tables.has_vector_iff.2 ⟨v, (h.vectors i v).2 (.inr hv)⟩
  | _ => rcases hk with hk | hk <;> cases hk

omit houtside in
/-- What is not there was not there in `t`. -/
theorem free {k : Key} (hk : k.entity = .node ∨ k.entity = .vector)
    (hfree : s.tx.view.has k = false) : t.has k = false := by
  rw [← Bool.not_eq_true] at hfree ⊢
  exact mt (h.has hk) hfree

omit houtside in
/-- The nodes when the agent of `j` has been added. -/
theorem nodes_welcomed {kind : NodeKind} {j : Node × List Vector}
    (hj : network.Welcomed last kind j s s') (i : NodeId) (n : Node) :
    s'.tx.view.nodes[i]? = some n ↔
      (∃ j' ∈ joined ++ [j], network.member j'.1 = n ∧ n.id = i) ∨ t.nodes[i]? = some n := by
  have hnode := Tables.nodes_ne_of_free hj.free
  rw [hj.joins.nodes, Tables.nodes_put_node]
  by_cases hi : j.1.id = i
  · subst hi
    rw [if_pos rfl, Option.some.injEq]
    constructor
    · rintro rfl
      exact .inl ⟨j, List.mem_concat_self, rfl, rfl⟩
    · rintro (⟨j', hj', hmember, hid⟩ | hold)
      · rcases List.mem_append.1 hj' with hj' | hj'
        · exact absurd ((h.nodes _ _).2 (.inl ⟨j', hj', hmember, hid⟩)) (hnode n)
        · rw [List.mem_singleton.1 hj'] at hmember
          exact hmember
      · exact absurd ((h.nodes _ _).2 (.inr hold)) (hnode n)
  · rw [if_neg hi, if_neg hi, h.nodes]
    refine or_congr_left ⟨?_, ?_⟩
    · rintro ⟨j', hj', hmember⟩
      exact ⟨j', List.mem_append_left _ hj', hmember⟩
    · rintro ⟨j', hj', rfl, hid⟩
      rcases List.mem_append.1 hj' with hj' | hj'
      · exact ⟨j', hj', rfl, hid⟩
      · rw [List.mem_singleton.1 hj'] at hid
        exact absurd hid hi

/-- The agent of `j` is one more agent. -/
theorem welcomed {kind : NodeKind} {j : Node × List Vector} (hkeyed : s.tx.view.Keyed)
    (hrole : kind.role = .agent) (hj : network.Welcomed last kind j s s')
    (hplain : s.mint.clock.Plain) : network.Grown t (joined ++ [j]) s' := by
  have hother : ∀ j' ∈ joined, j'.1.id ≠ j.1.id := fun j' hj' heq =>
    Tables.nodes_ne_of_free hj.free _ ((h.nodes _ _).2 (.inl ⟨j', hj', rfl, heq⟩))
  refine ⟨?_, ?_, ?_, h.nodes_welcomed hj, fun i v => ?_, ?_, ?_, ?_⟩
  · refine List.forall_mem_append.2 ⟨h.agents, List.forall_mem_singleton.2 ⟨?_, ?_, ?_⟩⟩
    · rw [hj.agent]
      exact hrole
    · rw [hj.agent]
      rfl
    · exact h.free (.inl rfl) hj.free
  · rw [List.map_append, List.nodup_append]
    refine ⟨h.nodup, List.nodup_singleton _, fun i hi k hk => ?_⟩
    obtain ⟨j', hj', rfl⟩ := List.mem_map.1 hi
    rw [List.mem_singleton.1 hk]
    exact hother j' hj'
  · rw [List.map_append, List.map_singleton, hj.agent]
    exact h.dealt.tick.mono hj.mint.reached
  · have hold : (s.tx.view.put (.node j.1)).vectors[i]? = some v ↔ _ := h.vectors i v
    rw [hj.joins.vectors, hold, List.flatMap_append, List.flatMap_singleton, List.mem_append,
      or_and_right, or_assoc, or_left_comm]
  · rw [List.flatMap_append, List.flatMap_singleton]
    refine List.forall_mem_append.2 ⟨h.vectorsFree, fun v hv => ?_⟩
    exact h.free (.inr rfl) (hj.vectorsFree v hv)
  · rw [List.flatMap_append, List.flatMap_singleton, List.map_append, List.nodup_append]
    refine ⟨h.vectorsNodup, hj.nodup, fun i hi k hk heq => ?_⟩
    obtain ⟨v, hv, rfl⟩ := List.mem_map.1 hi
    obtain ⟨v', hv', rfl⟩ := List.mem_map.1 hk
    exact Tables.vectors_ne_of_free (hj.vectorsFree v' hv') v
      ((h.vectors _ v).2 (.inl ⟨hv, heq⟩))
  · have hnetwork : j.1.network ≠ some network.id := by
      rw [hj.agent]
      nofun
    have hends : j.2.map Vector.ends =
        network.kind.wiring ((joined.map (·.1)).map (·.id)) j.1.id := by
      refine hj.joins.ends.trans ?_
      rw [endsIn, agentsIn_put_of_free hkeyed hj.free hnetwork,
        h.agentsIn_eq houtside hkeyed hplain, List.map_map, List.map_map]
      rfl
    rw [List.map_append, List.map_append, List.map_singleton, List.map_singleton,
      NetworkKind.wired_concat, h.ends, hends]

/-- The agents in `later` are several more. -/
theorem welcomes {later : List (Node × List Vector)} (hkeyed : s.tx.view.Keyed)
    (hlater : network.Welcomes last later s s') (hrole : ∀ j ∈ later, j.1.kind.role = .agent)
    (hplain : s'.mint.clock.Plain) : network.Grown t (joined ++ later) s' := by
  induction hlater generalizing joined with
  | nil s => rwa [List.append_nil]
  | @cons kind j later s s₁ s' hj hlater ih =>
    obtain ⟨hfirst, hrole⟩ := List.forall_mem_cons.1 hrole
    have hprecedes := ((Mint.precedes_spend .node s.mint).trans hj.mint).trans hlater.precedes
    have hnext := h.welcomed houtside hkeyed (hj.kind_eq ▸ hfirst) hj
      (hplain.of_reached hprecedes.reached)
    rw [List.append_cons]
    exact ih hnext hj.ready.keyed hrole hplain

end Grown

/-! ### What is counted -/

theorem fits_outgoing_iff {t : Tables} {n : NodeId} {v : Vector} :
    (Side.outgoing.query n).Fits t v ↔ v.origin = n :=
  ⟨fun h => h.origin n rfl, fun h => ⟨fun _ hn => by cases hn; exact h, nofun, nofun, nofun⟩⟩

theorem fits_network_iff {t : Tables} {i : NetworkId} {v : Vector} :
    ({ network := some i } : VectorQuery).Fits t v ↔
      ∃ n, t.nodes[v.origin]? = some n ∧ n.network = some i :=
  ⟨fun h => h.network i rfl, fun h => ⟨nofun, nofun, nofun, fun _ hi => by cases hi; exact h⟩⟩

namespace Grown

variable {t : Tables} {joined : List (Node × List Vector)} {s : Scene}
  (h : network.Grown t joined s)
include h

theorem map_ends : (joined.flatMap (·.2)).map Vector.ends =
    (network.kind.wired (fun before => before) (joined.map (·.1))).flatten := by
  rw [← h.ends, List.map_flatMap, List.flatMap_def]

/-- The vectors of `joined` lead from its agents. -/
theorem origin_mem {v : Vector} (hv : v ∈ joined.flatMap (·.2)) :
    ∃ j ∈ joined, j.1.id = v.origin := by
  have hends : v.ends ∈ (joined.flatMap (·.2)).map Vector.ends := List.mem_map_of_mem hv
  rw [h.map_ends] at hends
  have horigin := (NetworkKind.mem_wired hends).1
  rw [List.map_map] at horigin
  exact List.mem_map.1 horigin

section Counts

variable (hclosed : t.Closed)
include hclosed

/-- The vectors that were there in `t` do not lead from the agents of `joined`. -/
theorem origin_ne {i : VectorId} {v : Vector} (hv : t.vectors[i]? = some v) :
    ∀ j ∈ joined, j.1.id ≠ v.origin := by
  intro j hj hid
  have hfree := (h.agents j hj).2.2
  rw [hid, hclosed (.vector i) _ (Tables.find?_vector.2 hv) _ (.head _)] at hfree
  cases hfree

/-- What leaves an agent of `joined` are vectors of `joined`. -/
theorem outgoing_perm (hindexed : s.tx.view.Indexed) {j : Node × List Vector} (hj : j ∈ joined) :
    (s.tx.view.selectVectors (Side.outgoing.query j.1.id)).Perm
      ((joined.flatMap (·.2)).filter (·.origin = j.1.id)) := by
  have hfinds := hindexed.finds_selectVectors (Side.outgoing.query j.1.id)
  refine (List.perm_ext_iff_of_nodup (.of_map _ hfinds.nodup)
    (.filter _ (.of_map _ h.vectorsNodup))).2 fun v => ?_
  rw [hfinds.mem_iff, fits_outgoing_iff, h.vectors, List.mem_filter, decide_eq_true_iff]
  constructor
  · rintro ⟨⟨hv, -⟩ | hold, horigin⟩
    · exact ⟨hv, horigin⟩
    · exact absurd horigin.symm (h.origin_ne hclosed hold j hj)
  · rintro ⟨hv, horigin⟩
    exact ⟨.inl ⟨hv, rfl⟩, horigin⟩

/-- The vectors of the network are those of `joined`. -/
theorem vectors_perm (houtside : ∀ (i : NodeId) n, t.nodes[i]? = some n →
    n.network ≠ some network.id) (hindexed : s.tx.view.Indexed) :
    (s.tx.view.selectVectors { network := some network.id }).Perm (joined.flatMap (·.2)) := by
  have hfinds := hindexed.finds_selectVectors { network := some network.id }
  refine (List.perm_ext_iff_of_nodup (.of_map _ hfinds.nodup)
    (.of_map _ h.vectorsNodup)).2 fun v => ?_
  rw [hfinds.mem_iff, fits_network_iff, h.vectors]
  constructor
  · rintro ⟨⟨hv, -⟩ | hold, n, hn, hmember⟩
    · exact hv
    · rcases (h.nodes _ _).1 hn with ⟨j, hj, rfl, hid⟩ | hn
      · exact absurd hid (h.origin_ne hclosed hold j hj)
      · exact absurd hmember (houtside _ n hn)
  · intro hv
    obtain ⟨j, hj, hid⟩ := h.origin_mem hv
    exact ⟨.inl ⟨hv, rfl⟩, network.member j.1, (h.nodes _ _).2 (.inl ⟨j, hj, rfl, hid⟩), rfl⟩

/-- The outdegree of an agent of `joined` is the number of new vectors that start there. -/
theorem outdegree_eq (hindexed : s.tx.view.Indexed) {j : Node × List Vector} (hj : j ∈ joined) :
    (s.tx.view.selectVectors (Side.outgoing.query j.1.id)).length =
      (network.kind.wired (fun before => before) (joined.map (·.1))).flatten.countP
        (·.1 = j.1.id) := by
  rw [(h.outgoing_perm hclosed hindexed hj).length_eq, ← h.map_ends, List.countP_map,
    List.countP_eq_length_filter]
  rfl

end Counts

variable (houtside : ∀ (i : NodeId) n, t.nodes[i]? = some n → n.network ≠ some network.id)
  (hkeyed : s.tx.view.Keyed) (hplain : s.mint.clock.Plain)

section Outside

include houtside

/-- The network has no sources. -/
theorem selectSources_eq_nil : s.tx.view.selectNodes
    { network := some network.id, role := some .source, excluded := [.failed] } = [] := by
  refine List.eq_nil_iff_forall_not_mem.2 fun n hn => ?_
  rw [Tables.selectNodes, mem_sort, List.mem_filter, Tables.mem_rows] at hn
  obtain ⟨⟨i, hi⟩, hmatches⟩ := hn
  simp only [NodeQuery.matches, Bool.and_eq_true, Option.all_some, decide_eq_true_eq] at hmatches
  obtain ⟨⟨⟨hnetwork, hrole⟩, -⟩, -⟩ := hmatches
  rcases (h.nodes i n).1 hi with ⟨j, hj, rfl, -⟩ | hold
  · have hagent := (h.agents j hj).1
    cases hrole.symm.trans hagent
  · exact houtside i n hold hnetwork

include hkeyed hplain

/-- What `agents` answers are the agents in `joined`, in the order in which they were added. -/
theorem answers_agents : network.agents.Answers s.tx
    (.ok (joined.map fun j => network.member j.1)) := by
  rw [← h.agentsIn_eq houtside hkeyed hplain]
  exact Access.answers_nodes _ s.tx

variable (hclosed : t.Closed) (hindexed : s.tx.view.Indexed)
include hclosed hindexed

/-- What `degrees` answers are the outdegrees of the agents, in the order in which they were added.
-/
theorem answers_degrees : network.degrees.Answers s.tx (.ok ((joined.map (·.1)).map fun n =>
    (network.kind.wired (fun before => before) (joined.map (·.1))).flatten.countP
      (·.1 = n.id))) := by
  have hdegrees := network.answers_outdegrees s.tx
  rw [h.agentsIn_eq houtside hkeyed hplain, List.map_map] at hdegrees
  rw [List.map_map]
  exact List.map_congr_left (fun j hj => h.outdegree_eq hclosed hindexed hj) ▸ hdegrees

omit hkeyed hplain in
/-- What `vectors` answers are the vectors of `joined`. -/
theorem answers_vectors : ∃ found, network.vectors.Answers s.tx (.ok found) ∧
    found.Perm (joined.flatMap (·.2)) :=
  ⟨_, (Access.answers_vectors _ s.tx).map _,
    (sort_perm _ _).trans (h.vectors_perm hclosed houtside hindexed)⟩

/-- What `summary` answers are the number of agents in `joined`, no sources, and the number of their
vectors. -/
theorem answers_summary : network.summary.Answers s.tx (.ok
    { id := network.id, kind := network.kind, agents := joined.length, sources := 0
      vectors := (joined.flatMap (·.2)).length }) := by
  refine (h.answers_agents houtside hkeyed hplain).bind_of_ok fun tx₁ hnoted₁ => ?_
  have hsources : network.sources.Answers tx₁ (.ok []) := by
    have hnone := h.selectSources_eq_nil houtside
    rw [← hnoted₁.view_eq] at hnone
    exact hnone ▸ Access.answers_nodes _ tx₁
  refine hsources.bind_of_ok fun tx₂ hnoted₂ => ?_
  have hvectors : network.vectors.Answers tx₂
      (.ok (sort Vector.byEnds (tx₂.view.selectVectors { network := some network.id }))) :=
    (Access.answers_vectors _ tx₂).map _
  have hlength : (sort Vector.byEnds
      (tx₂.view.selectVectors { network := some network.id })).length =
      (joined.flatMap (·.2)).length := by
    rw [length_sort, (hnoted₁.trans hnoted₂).view_eq,
      (h.vectors_perm hclosed houtside hindexed).length_eq]
  have hcount : (joined.map fun j => network.member j.1).length = joined.length := List.length_map _
  rw [← hlength, ← hcount]
  exact hvectors.map fun found => Summary.mk _ _ _ _ found.length

end Outside

end Grown

/-! ### Chains and stars -/

namespace Grown

variable {t : Tables} {first : Node × List Vector} {later : List (Node × List Vector)} {s : Scene}
  (h : network.Grown t (first :: later) s)
include h

theorem nodup_agents : ((first.1 :: later.map (·.1)).map (·.id)).Nodup := by
  rw [List.map_cons, List.map_map]
  exact h.nodup

/-- The agents and vectors of a chain, and what is counted there. -/
theorem chain (hkind : network.kind = .chain) :
    (first :: later).map (·.2.map Vector.ends) =
      [] :: (((first :: later).map (·.1.id)).zip (later.map (·.1.id))).map (fun p => [p]) ∧
    (((first :: later).map (·.1)).map fun n =>
      (network.kind.wired (fun before => before) ((first :: later).map (·.1))).flatten.countP
        (·.1 = n.id)) = List.replicate later.length 1 ++ [0] ∧
    ((first :: later).flatMap (·.2)).length = later.length := by
  have hwired := NetworkKind.wired_chain first.1 (later.map (·.1))
  have hdegrees := NetworkKind.outdegrees_chain h.nodup_agents
  have hlength := congrArg List.length h.map_ends
  rw [hkind] at hlength ⊢
  refine ⟨?_, ?_, ?_⟩
  · rw [h.ends, hkind]
    refine hwired.trans ?_
    rw [List.map_cons, List.map_map]
    rfl
  · rwa [List.length_map] at hdegrees
  · rw [List.length_map, List.map_cons, NetworkKind.flatten_wired_chain] at hlength
    rw [hlength]
    simp

/-- The agents and vectors of a star, and what is counted there. -/
theorem star (hkind : network.kind = .star) :
    (first :: later).map (·.2.map Vector.ends) =
      [] :: later.map (fun j => [(first.1.id, j.1.id), (j.1.id, first.1.id)]) ∧
    (((first :: later).map (·.1)).map fun n =>
      (network.kind.wired (fun before => before) ((first :: later).map (·.1))).flatten.countP
        (·.1 = n.id)) = later.length :: List.replicate later.length 1 ∧
    ((first :: later).flatMap (·.2)).length = 2 * later.length := by
  have hwired := NetworkKind.wired_star first.1 (later.map (·.1))
  have hdegrees := NetworkKind.outdegrees_star h.nodup_agents
  have hlength := congrArg List.length h.map_ends
  rw [hkind] at hlength ⊢
  refine ⟨?_, ?_, ?_⟩
  · rw [h.ends, hkind]
    refine hwired.trans ?_
    rw [List.map_map]
    rfl
  · rwa [List.length_map] at hdegrees
  · rw [List.length_map, List.map_cons, hwired, List.flatten_cons, List.nil_append,
      List.length_flatten, List.map_map] at hlength
    rw [hlength]
    simp [Function.comp_def, mul_comm]

end Grown

end Network

/-! ## Whole networks -/

/-- The `network` is there and has no members. -/
structure Network.Vacant (network : Network) (t : Tables) : Prop where
  there : t.has (.network network.id)
  outside : ∀ n ∈ Tables.rows t.nodes, n.network ≠ some network.id

/-- A network that `create` has just made has no members: a node of an identifier that was free
would have referred to something that was not there. -/
theorem Network.vacant_create {kind : NetworkKind} {s s' : Scene} {network : Network}
    (hclosed : s.tx.view.Closed) (h : create kind s = .ok network s') :
    network.Vacant s'.tx.view := by
  obtain ⟨fresh, s₁, hfresh, h⟩ := Op.of_bind_ok h
  obtain ⟨⟨⟩, s₂, hlift, hpure⟩ := Op.of_bind_ok h
  obtain ⟨tx, hinsert, rfl⟩ := Op.of_access_ok hlift
  obtain ⟨haccept, -, rfl⟩ := Access.recordIf_ok hinsert
  cases hfresh
  cases hpure
  have hfind := Record.find?_of_accept haccept
  constructor
  · exact Tables.has_put_self (.network _) _
  · rintro n hn hmember
    obtain ⟨i, hi⟩ := Tables.mem_rows.1 hn
    have hhas := hclosed (.node i) _ (Tables.find?_node.2 hi) _
      (by rw [Record.references, hmember]; exact .head _)
    rw [Tables.has, show s.tx.view.find? (.network _) = none from hfind] at hhas
    cases hhas

namespace Chronicle

variable {α : Type} {c : Chronicle α}

theorem Sound.indexed (hc : c.Sound) {t : Tables} (ht : c.world.Offers t) : t.Indexed :=
  (hc.linked t ht).indexed_of_keyed (hc.reachable.keyed_offered ht)

/-- In a view of a run that may be written, agents are created, each of which is added to a network
before the next one is created; the network had no members, and no node and no vector has an
identifier that is drawn. Each call answers the vectors that it makes. In a chain, each agent then
leads to the next one; in a star, the first one leads to each other one, and each of these back to
it. -/
theorem Run.grown_welcome (h : c.Run) {name : Nat} {s : Session α}
    (hs : c.world.sessions name = some s) (hmode : s.tx.mode = .readWrite)
    {network : Network} (hvacant : network.Vacant s.tx.view) {kinds : List NodeKind}
    (hkinds : kinds ≠ []) (hrole : ∀ k ∈ kinds, k.role = .agent)
    (hunused : ∀ e ∈ [Entity.node, .vector], s.tx.view.Unused e c.world.store.mint.ids
      (final (kinds.mapM network.welcome { tx := s.tx, mint := c.world.store.mint })).mint.ids)
    (hplain : (final (kinds.mapM network.welcome
      { tx := s.tx, mint := c.world.store.mint })).mint.clock.Plain) :
    ∃ first later grown,
      kinds.mapM network.welcome { tx := s.tx, mint := c.world.store.mint } =
        .ok (first :: later) grown ∧
      network.Welcomes grown.mint.ids (first :: later)
        { tx := s.tx, mint := c.world.store.mint } grown ∧
      (first :: later).map (·.1.kind) = kinds ∧ network.Grown s.tx.view (first :: later) grown ∧
      network.agents.Answers grown.tx (.ok ((first :: later).map fun j => network.member j.1)) ∧
      (∃ found, network.vectors.Answers grown.tx (.ok found) ∧
        found.Perm ((first :: later).flatMap (·.2))) ∧
      (network.kind = .chain →
        (first :: later).map (·.2.map Vector.ends) =
          [] :: (((first :: later).map (·.1.id)).zip (later.map (·.1.id))).map (fun p => [p]) ∧
        network.degrees.Answers grown.tx (.ok (List.replicate later.length 1 ++ [0])) ∧
        network.summary.Answers grown.tx (.ok
          { id := network.id, kind := .chain, agents := later.length + 1, sources := 0
            vectors := later.length })) ∧
      (network.kind = .star →
        (first :: later).map (·.2.map Vector.ends) =
          [] :: later.map (fun j => [(first.1.id, j.1.id), (j.1.id, first.1.id)]) ∧
        network.degrees.Answers grown.tx (.ok (later.length :: List.replicate later.length 1)) ∧
        network.summary.Answers grown.tx (.ok
          { id := network.id, kind := .star, agents := later.length + 1, sources := 0
            vectors := 2 * later.length })) := by
  have hsound := h.sound
  have hkeyed := (hsound.reachable.sound.sessions name s hs).keyed_view
  have hclosed := hsound.reachable.closed_view hs
  have hindexed := hsound.indexed (.view hs)
  let begun : Scene := { tx := s.tx, mint := c.world.store.mint }
  have hready : network.Ready _ begun := ⟨hmode, hkeyed, hunused .node (.head _),
    hunused .vector (.tail _ (.head _)), hvacant.there⟩
  obtain ⟨joined, grown, hrun, hwelcomes, hmap⟩ := hready.welcomes hrole List.prefix_rfl
  rw [hrun] at hplain hready hwelcomes
  have houtside (i : NodeId) (n : Node) (hn : s.tx.view.nodes[i]? = some n) :
      n.network ≠ some network.id := hvacant.outside n (Tables.mem_rows.2 ⟨i, hn⟩)
  have hbegun : network.Grown s.tx.view [] begun :=
    ⟨List.forall_mem_nil _, .nil, .nil _, fun i n => by simp [begun], fun i v => by simp [begun],
      List.forall_mem_nil _, .nil, rfl⟩
  have hroles : ∀ j ∈ joined, j.1.kind.role = .agent := by
    subst hmap
    exact fun j hj => hrole _ (List.mem_map_of_mem hj)
  have hgrown := hbegun.welcomes houtside hkeyed hwelcomes hroles hplain
  have hkeyed' := (hwelcomes.ready hready).keyed
  have hindexed' : grown.tx.view.Indexed :=
    ((Curates.mapM (@Network.curates_welcome network fun _ => False) kinds).asks.of_ok
      hrun).indexed_view hindexed
  cases joined with
  | nil => exact absurd hmap.symm hkinds
  | cons first later =>
    have hdegrees := hgrown.answers_degrees houtside hkeyed' hplain hclosed hindexed'
    have hsummary := hgrown.answers_summary houtside hkeyed' hplain hclosed hindexed'
    refine ⟨first, later, grown, hrun, hwelcomes, hmap, hgrown,
      hgrown.answers_agents houtside hkeyed' hplain,
      hgrown.answers_vectors houtside hclosed hindexed', fun hchain => ?_, fun hstar => ?_⟩
    · obtain ⟨hends, hcounts, hlength⟩ := hgrown.chain hchain
      rw [List.nil_append, hcounts] at hdegrees
      rw [List.nil_append, hlength, hchain] at hsummary
      exact ⟨hends, hdegrees, hsummary⟩
    · obtain ⟨hends, hcounts, hlength⟩ := hgrown.star hstar
      rw [List.nil_append, hcounts] at hdegrees
      rw [List.nil_append, hlength, hstar] at hsummary
      exact ⟨hends, hdegrees, hsummary⟩

/-- A star that was made in a transaction that has just begun. -/
def founded : World Unit :=
  ((World.init Mint.still).begin 0 .readWrite .serializable ()).use 0 (Network.create .star)
    fun _ _ => ()
where
  star : Network := (Network.fresh .star .still).1

/-- The transaction in which `founded.star` is made. -/
def founded.begun : Transaction := (Store.begin .readWrite .serializable { mint := .still }).1

theorem founded.create_apply : Network.create .star { tx := founded.begun, mint := .still } =
    .ok founded.star { tx := founded.begun.store (.network founded.star)
                       mint := (Network.fresh .star .still).2 } := rfl

/-- Of three agents of a star, two vectors leave the first one, and one each of the others. -/
theorem grown_welcome_founded : ∃ s, founded.sessions 0 = some s ∧ ∃ joined grown,
    [.agent, .agent, .agent].mapM founded.star.welcome { tx := s.tx, mint := founded.store.mint } =
      .ok joined grown ∧
    founded.star.degrees.Answers grown.tx (.ok [2, 1, 1]) := by
  obtain ⟨made, -, hfounded⟩ := (alone_begin Mint.still 0 .readWrite .serializable ()).use
    (@Network.curates_create (fun _ => False) .star).asks fun _ _ => ()
  have hmode : ∀ s ∈ founded.sessions 0, s.tx.mode = .readWrite := by
    decide +kernel
  have hvacant : ∀ s ∈ founded.sessions 0, founded.star.Vacant s.tx.view := by
    rintro s ⟨⟩
    exact Network.vacant_create Tables.closed_empty founded.create_apply
  have hmint : ∀ s ∈ founded.sessions 0,
      let after := (final ([.agent, .agent, .agent].mapM founded.star.welcome
        { tx := s.tx, mint := founded.store.mint })).mint
      (∀ e ∈ [Entity.node, .vector], s.tx.view.Unused e founded.store.mint.ids after.ids) ∧
        after.clock.Plain := by
    decide +kernel
  obtain ⟨s, hs⟩ : ∃ s, founded.sessions 0 = some s := ⟨_, rfl⟩
  obtain ⟨hunused, hplain⟩ := hmint s hs
  obtain ⟨first, later, grown, hwelcome, -, hkinds, -, -, -, -, hstar⟩ :=
    hfounded.run.grown_welcome hs (hmode s hs) (hvacant s hs) (List.cons_ne_nil _ _)
      (by decide) hunused hplain
  have hlength : later.length = 2 := by
    have hcount := congrArg List.length hkinds
    rw [List.length_map] at hcount
    exact Nat.succ.inj hcount
  obtain ⟨-, hdegrees, -⟩ := hstar rfl
  rw [hlength] at hdegrees
  exact ⟨s, hs, _, grown, hwelcome, hdegrees⟩

end Chronicle

end Propagation
