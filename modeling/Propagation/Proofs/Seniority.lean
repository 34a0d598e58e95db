import Propagation.Proofs.Wiring
import Propagation.Proofs.History
import Propagation.Proofs.Index
import Mathlib.Data.List.Induction

/-!
# Who came before

An agent that joins a chain is led to by the agent before it, and one that joins a star is joined
with the first. Which agents came before, and in what order, a network reads off the nodes: in the
order in which they were created. The order in which they were added is written down nowhere. So the
two agree only for agents that were created in the order in which they are added, and else an agent
of a chain is led to by the youngest agent before it, and the eldest one is the hub of a star.

## Main definitions

* `Network.addAgents`: add several agents, one after the other.
* `NetworkKind.wired`: the ends of the vectors, if the earlier agents stand in some order.
* `Network.Gathered`: what the agents that were added leave in a transaction.

## Main statements

* `Network.addAgents_chronological`: agents are wired in the order of their creation.
* `NetworkKind.wired_chain_iff`, `NetworkKind.wired_star_iff`: when that is the order in which they
  were added.
-/

namespace Propagation

/-! ## Sorting -/

section Sorting

variable {α β : Type} {cmp : α → α → Ordering} {cmp' : β → β → Ordering}

theorem sort_map {f : α → β} (h : ∀ a b, cmp' (f a) (f b) = cmp a b) (xs : List α) :
    sort cmp' (xs.map f) = (sort cmp xs).map f := by
  have hinsert : ∀ x ys, insertSorted cmp' (f x) (ys.map f) = (insertSorted cmp x ys).map f := by
    intro x ys
    induction ys with
    | nil => rfl
    | cons y ys ih =>
      rw [List.map_cons, insertSorted, insertSorted, h, ih]
      split <;> rfl
  induction xs with
  | nil => rfl
  | cons x xs ih => rw [List.map_cons, sort_cons, ih, hinsert, sort_cons]

section Extremes

variable [Std.TransCmp cmp]

/-- The last of a sorted list is the element `x` that no other one comes after. -/
theorem getLast?_sort {xs : List α} {x : α} (hx : x ∈ xs)
    (heq : ∀ a ∈ xs, ∀ b ∈ xs, cmp a b = .eq → a = b) :
    (sort cmp xs).getLast? = some x ↔ ∀ a ∈ xs, (cmp a x).isLE := by
  obtain hnil | ⟨ys, y, hys⟩ := (sort cmp xs).eq_nil_or_concat
  · rw [← @mem_sort _ cmp, hnil] at hx
    cases hx
  · rw [List.concat_eq_append] at hys
    have hsorted := @pairwise_sort _ cmp _ xs
    have hmem : ∀ a, a ∈ xs ↔ a ∈ ys ∨ a = y := by
      intro a
      rw [← @mem_sort _ cmp, hys, List.mem_append, List.mem_singleton]
    rw [hys, List.pairwise_append] at hsorted
    have hle : ∀ a ∈ xs, (cmp a y).isLE := by
      intro a ha
      rcases (hmem a).1 ha with ha | rfl
      · exact hsorted.2.2 a ha y (.head _)
      · exact Std.ReflCmp.isLE_rfl
    rw [hys, List.getLast?_concat, Option.some.injEq]
    constructor
    · rintro rfl
      exact hle
    · intro hlast
      have hy : y ∈ xs := (hmem y).2 (.inr rfl)
      exact heq y hy x hx (Std.OrientedCmp.isLE_antisymm (hlast y hy) (hle x hx))

/-- The first of a sorted list is the element `x` that comes after no other one. -/
theorem head?_sort {xs : List α} {x : α} (hx : x ∈ xs)
    (heq : ∀ a ∈ xs, ∀ b ∈ xs, cmp a b = .eq → a = b) :
    (sort cmp xs).head? = some x ↔ ∀ a ∈ xs, (cmp x a).isLE := by
  cases hys : sort cmp xs with
  | nil =>
    rw [← @mem_sort _ cmp, hys] at hx
    cases hx
  | cons y ys =>
    have hsorted := @pairwise_sort _ cmp _ xs
    have hmem : ∀ a, a ∈ xs ↔ a = y ∨ a ∈ ys := by
      intro a
      rw [← @mem_sort _ cmp, hys, List.mem_cons]
    rw [hys, List.pairwise_cons] at hsorted
    have hle : ∀ a ∈ xs, (cmp y a).isLE := by
      intro a ha
      rcases (hmem a).1 ha with rfl | ha
      · exact Std.ReflCmp.isLE_rfl
      · exact hsorted.1 a ha
    rw [List.head?_cons, Option.some.injEq]
    constructor
    · rintro rfl
      exact hle
    · intro hfirst
      have hy : y ∈ xs := (hmem y).2 (.inl rfl)
      exact heq y hy x hx (Std.OrientedCmp.isLE_antisymm (hle x hx) (hfirst y hy))

end Extremes

end Sorting

instance : Std.TransCmp Node.chronological :=
  inferInstanceAs (Std.TransCmp (compareLex (compareOn Node.creationTime) (compareOn Node.id)))

/-! ## Wiring in an order -/

namespace NetworkKind

/-- The ends of the vectors that join the `agents`, one after the other, if those before each of
them stand in this `order`. -/
def wired (kind : NetworkKind) (order : List Node → List Node) (agents : List Node) :
    List (List (NodeId × NodeId)) :=
  agents.mapIdx fun k agent => kind.wiring ((order (agents.take k)).map (·.id)) agent.id

variable {kind : NetworkKind} {order : List Node → List Node}

theorem wired_concat (agents : List Node) (a : Node) :
    kind.wired order (agents ++ [a]) =
      kind.wired order agents ++ [kind.wiring ((order agents).map (·.id)) a.id] := by
  rw [wired, List.mapIdx_concat, List.take_left, wired]
  congr 1
  refine List.ext_getElem (by simp) fun k hk _ => ?_
  have hlt : k < agents.length := by simpa using hk
  simp [List.take_append_of_le_length (Nat.le_of_lt hlt)]

/-- One more agent `a` is wired the same if all those before it are, and the orders agree on them.
-/
theorem wired_concat_eq_iff {order' : List Node → List Node} {agents : List Node} {a : Node} :
    kind.wired order (agents ++ [a]) = kind.wired order' (agents ++ [a]) ↔
      kind.wired order agents = kind.wired order' agents ∧
        kind.wiring ((order agents).map (·.id)) a.id =
          kind.wiring ((order' agents).map (·.id)) a.id := by
  rw [wired_concat, wired_concat]
  constructor
  · intro h
    obtain ⟨hinit, hlast⟩ := List.append_inj' h rfl
    exact ⟨hinit, List.singleton_inj.1 hlast⟩
  · rintro ⟨hinit, hlast⟩
    rw [hinit, hlast]

theorem wiring_chain_eq_iff {earlier earlier' : List NodeId} {new : NodeId} :
    chain.wiring earlier new = chain.wiring earlier' new ↔
      earlier.getLast? = earlier'.getLast? := by
  simp only [wiring]
  cases earlier.getLast? <;> cases earlier'.getLast? <;> simp

theorem wiring_star_eq_iff {earlier earlier' : List NodeId} {new : NodeId} :
    star.wiring earlier new = star.wiring earlier' new ↔ earlier.head? = earlier'.head? := by
  simp only [wiring]
  cases earlier.head? <;> cases earlier'.head? <;> simp

section Seniority

variable {agents : List Node} (hnodup : (agents.map (·.id)).Nodup)
include hnodup

/-- Of `agents` with different identifiers, no two are of the same age. -/
theorem eq_of_chronological {a b : Node} (ha : a ∈ agents) (hb : b ∈ agents)
    (hab : Node.chronological a b = .eq) : a = b :=
  List.inj_on_of_nodup_map hnodup ha hb
    (Std.LawfulEqOrd.eq_of_compare (Ordering.then_eq_eq.1 hab).2)

theorem map_id_eq_some_iff {o : Option Node} {b : Node} (ho : ∀ a, o = some a → a ∈ agents)
    (hb : b ∈ agents) : o.map (·.id) = some b.id ↔ o = some b := by
  cases o with
  | none => simp
  | some a =>
    rw [Option.map_some, Option.some.injEq, Option.some.injEq]
    exact ⟨List.inj_on_of_nodup_map hnodup (ho a rfl) hb, congrArg Node.id⟩

/-- Each agent of a chain is led to by the one that was added before it exactly if all but the last
one were added in the order of their creation. -/
theorem wired_chain_iff :
    chain.wired (sort Node.chronological) agents = chain.wired (fun before => before) agents ↔
      agents.dropLast.Pairwise fun a b => (Node.chronological a b).isLE := by
  induction agents using List.reverseRecOn with
  | nil => simp [wired]
  | append_singleton agents a ih =>
    rw [List.map_append, List.nodup_append] at hnodup
    rw [wired_concat_eq_iff, ih hnodup.1, List.dropLast_concat]
    rcases agents.eq_nil_or_concat with rfl | ⟨before, b, rfl⟩
    · simp
    · rw [List.concat_eq_append] at hnodup ⊢
      have hb : b ∈ before ++ [b] := List.mem_concat_self
      have hsame : ∀ x ∈ before ++ [b], ∀ y ∈ before ++ [b], Node.chronological x y = .eq → x = y :=
        fun x hx y hy => eq_of_chronological hnodup.1 hx hy
      have hmem : ∀ x, (sort Node.chronological (before ++ [b])).getLast? = some x →
          x ∈ before ++ [b] := fun x hx => mem_sort.1 (List.mem_of_getLast? hx)
      rw [wiring_chain_eq_iff, List.getLast?_map, List.map_append, List.map_singleton,
        List.getLast?_concat, map_id_eq_some_iff hnodup.1 hmem hb, getLast?_sort hb hsame,
        List.dropLast_concat, List.pairwise_append]
      simp only [List.pairwise_singleton, List.mem_singleton, forall_eq, true_and,
        List.forall_mem_append]
      exact and_congr_right fun _ => and_iff_left Std.ReflCmp.isLE_rfl

/-- All later agents of a star are joined with the one that was added first exactly if it was
created before all of them, but perhaps not before the last. -/
theorem wired_star_iff :
    star.wired (sort Node.chronological) agents = star.wired (fun before => before) agents ↔
      ∀ hub, agents.head? = some hub →
        ∀ a ∈ agents.dropLast, (Node.chronological hub a).isLE := by
  induction agents using List.reverseRecOn with
  | nil => simp [wired]
  | append_singleton agents a ih =>
    rw [List.map_append, List.nodup_append] at hnodup
    rw [wired_concat_eq_iff, ih hnodup.1, List.dropLast_concat]
    cases agents with
    | nil => simp
    | cons hub later =>
      have hhub : hub ∈ hub :: later := List.mem_cons_self
      have hsame : ∀ x ∈ hub :: later, ∀ y ∈ hub :: later, Node.chronological x y = .eq → x = y :=
        fun x hx y hy => eq_of_chronological hnodup.1 hx hy
      have hmem : ∀ x, (sort Node.chronological (hub :: later)).head? = some x →
          x ∈ hub :: later := fun x hx => mem_sort.1 (List.mem_of_head? hx)
      rw [wiring_star_eq_iff, List.head?_map, List.map_cons,
        show (hub.id :: later.map (·.id)).head? = some hub.id from rfl,
        map_id_eq_some_iff hnodup.1 hmem hhub, head?_sort hhub hsame]
      simp only [List.cons_append, List.head?_cons, Option.some.injEq, forall_eq']
      exact and_iff_right_of_imp fun h x hx => h x (List.dropLast_subset _ hx)

end Seniority

end NetworkKind

/-! ## Adding several agents -/

namespace Holding

variable {ρ α : Type}

/-- Run the operation `a` on the copy `copy`, and keep what it answers. -/
def through (copy : ρ) (a : Holding ρ α) : Op α := fun scene =>
  match a { copy, scene } with
  | .ok v h => .ok v h.scene
  | .error e h => .error e h.scene

theorem through_of_ok {copy copy' : ρ} {a : Holding ρ α} {scene scene' : Scene} {v : α}
    (h : a { copy, scene } = .ok v { copy := copy', scene := scene' }) :
    through copy a scene = .ok v scene' := by
  rw [through, h]

theorem scene_final_through (copy : ρ) (a : Holding ρ α) (scene : Scene) :
    final (through copy a scene) = (final (a { copy, scene })).scene := by
  rw [through]
  cases a { copy, scene } <;> rfl

end Holding

theorem Draws.through {ρ α : Type} {a : Holding ρ α} (h : Draws a) (copy : ρ) :
    Draws (Holding.through copy a) := fun scene => by
  rw [Holding.scene_final_through]
  exact h { copy, scene }

namespace Network

/-- Add the `agents`, one after the other. -/
def addAgents (network : Network) (agents : List Node) : Op (List (List Vector)) :=
  agents.mapM fun agent => Holding.through agent network.addAgent

variable {network : Network}

theorem addAgents_concat (agents : List Node) (a : Node) :
    network.addAgents (agents ++ [a]) = (do
      let made ← network.addAgents agents
      let last ← Holding.through a network.addAgent
      return made ++ [last]) := by
  rw [addAgents, List.mapM_append]
  simp [addAgents]

/-- The node `n` as a member of `network`. -/
def member (network : Network) (n : Node) : Node := { n with network := some network.id }

/-- What is left in a transaction when several agents have been added, and the mint goes on until
it is at `last`. -/
structure Gathered (network : Network) (last : IdSource) (agents : List Node)
    (tx tx' : Transaction) (mint : Mint) : Prop where
  mode : tx'.mode = .readWrite
  keyed : tx'.view.Keyed
  unused : tx'.view.Unused .vector mint.ids last
  there : tx'.view.has (.network network.id)
  /-- All other nodes are as before. -/
  nodes : ∀ i, i ∉ agents.map (·.id) → tx'.view.nodes[i]? = tx.view.nodes[i]?
  /-- The agents of the network are those that were added. -/
  members : network.agentsIn tx'.view = sort Node.chronological (agents.map network.member)

theorem agentsIn_congr {t u : Tables} (h : t.nodes = u.nodes) :
    network.agentsIn t = network.agentsIn u := by
  rw [agentsIn, agentsIn, Tables.selectNodes, Tables.selectNodes, h]

/-- The agents of `network` are `ns`, sorted, if both list the same. -/
theorem agentsIn_eq_sort {t : Tables} (hkeyed : t.Keyed) {ns : List Node}
    (hnodup : (ns.map (·.id)).Nodup) (hmem : ∀ n, n ∈ network.agentsIn t ↔ n ∈ ns) :
    network.agentsIn t = sort Node.chronological ns := by
  have hrows : (network.agentsIn t).Nodup := .of_map _ (nodup_agentsIn hkeyed)
  refine eq_sort_of_perm ((List.perm_ext_iff_of_nodup hrows (.of_map _ hnodup)).2 hmem)
    (pairwise_sort _) ?_
  intro a ha b hb
  exact NetworkKind.eq_of_chronological hnodup ha hb

/-- A node `a` that neither was nor is an agent of `network` leaves those as they are. -/
theorem agentsIn_put {t : Tables} (hkeyed : t.Keyed) {a : Node}
    (hold : ∀ n ∈ network.agentsIn t, n.id ≠ a.id)
    (hnew : a.network = some network.id → a.kind.role ≠ .agent) :
    network.agentsIn (t.put (.node a)) = network.agentsIn t := by
  have hids : ((network.agentsIn t).map (·.id)).Nodup := nodup_agentsIn hkeyed
  have hsort := agentsIn_eq_sort hkeyed hids fun _ => .rfl
  refine (agentsIn_eq_sort (hkeyed.put _) hids fun n => ?_).trans hsort.symm
  rw [mem_agentsIn (hkeyed.put _), Tables.nodes_put_node]
  by_cases hid : a.id = n.id
  · rw [if_pos hid]
    constructor
    · rintro ⟨⟨⟩, hmember, hrole, -⟩
      exact absurd hrole (hnew hmember)
    · intro hn
      exact absurd hid.symm (hold n hn)
  · rw [if_neg hid, mem_agentsIn hkeyed]

theorem map_id_member (agents : List Node) :
    (agents.map network.member).map (·.id) = agents.map (·.id) := by
  rw [List.map_map]
  rfl

/-- One more node `a` that is alive and plays the role is one more agent. -/
theorem agentsIn_put_member {t : Tables} (hkeyed : t.Keyed) {agents : List Node} {a : Node}
    (hmembers : network.agentsIn t = sort Node.chronological (agents.map network.member))
    (hnodup : ((agents ++ [a]).map (·.id)).Nodup) (hrole : a.kind.role = .agent)
    (halive : a.isAlive) :
    network.agentsIn (t.put (.node (network.member a))) =
      sort Node.chronological ((agents ++ [a]).map network.member) := by
  refine agentsIn_eq_sort (hkeyed.put _) (by rwa [map_id_member]) fun n => ?_
  rw [List.map_append, List.nodup_append] at hnodup
  have hold : n ∈ agents.map network.member ↔ n ∈ network.agentsIn t := by rw [hmembers, mem_sort]
  rw [List.map_append, List.mem_append, List.map_singleton, List.mem_singleton, hold,
    mem_agentsIn (hkeyed.put _), mem_agentsIn hkeyed, Tables.nodes_put_node]
  by_cases hid : (network.member a).id = n.id
  · rw [if_pos hid, Option.some.injEq]
    constructor
    · rintro ⟨rfl, -⟩
      exact .inr rfl
    · rintro (hn | rfl)
      · -- an agent that was added before is another node
        have hn' := hold.2 ((mem_agentsIn hkeyed).2 hn)
        obtain ⟨b, hb, rfl⟩ := List.mem_map.1 hn'
        exact absurd hid.symm (hnodup.2.2 b.id (List.mem_map_of_mem hb) a.id (.head _))
      · exact ⟨rfl, rfl, hrole, halive⟩
  · rw [if_neg hid]
    constructor
    · exact .inl
    · rintro (hn | rfl)
      · exact hn
      · exact absurd rfl hid

section AddAgents

variable {agents : List Node} {a : Node} {tx tx' : Transaction} {mint : Mint} {last : IdSource}

/-- One more agent `a` is added to those that were. -/
theorem Gathered.add (h : network.Gathered last agents tx tx' mint)
    (hnodup : ((agents ++ [a]).map (·.id)).Nodup) (hstored : tx.view.nodes[a.id]? = some a)
    (hrole : a.kind.role = .agent) (halive : a.isAlive)
    (hlast : (final (Holding.through a network.addAgent
      { tx := tx', mint })).mint.ids.given <+: last.given) :
    ∃ vectors tx'' mint'', Holding.through a network.addAgent { tx := tx', mint } =
        .ok vectors { tx := tx'', mint := mint'' } ∧
      vectors.map (fun v => (v.origin, v.destination)) = network.kind.wiring
        ((sort Node.chronological agents).map (·.id)) a.id ∧
      network.Gathered last (agents ++ [a]) tx tx'' mint'' := by
  have hnew : a.id ∉ agents.map (·.id) := by
    rw [List.map_append, List.nodup_append] at hnodup
    exact fun hmem => hnodup.2.2 a.id hmem a.id (.head _) rfl
  have hstored' : tx'.view.nodes[a.id]? = some a := (h.nodes a.id hnew).trans hstored
  rw [Holding.scene_final_through] at hlast
  have hadd := addAgent_ok hrole rfl hstored' h.there h.mode h.keyed (h.unused.of_prefix
    (network.draws_addAgent { copy := a, scene := { tx := tx', mint } }) hlast)
  rw [hadd] at hlast
  refine ⟨_, _, _, Holding.through_of_ok hadd, ?_, ?_⟩
  · have hsort : sort Node.chronological (agents.map network.member) =
        (sort Node.chronological agents).map network.member := sort_map (fun _ _ => rfl) agents
    rw [Vector.ends_freshAll, endsIn, h.members, hsort, map_id_member]
  · have hhas : (tx'.noteScan .node).view.has (.node a.id) := by
      simp [Tables.has, Tables.find?, hstored']
    have hunused : (tx'.noteScan .node).view.Unused .vector mint.ids last := h.unused
    refine ⟨?_, ?_, ?_, ?_, fun i hi => ?_, ?_⟩
    · rw [Transaction.mode_storeAll]
      exact h.mode
    · exact Transaction.keyed_storeAll (h.keyed.put _) _
    · exact Transaction.unused_storeAll (unused_enroll hunused hhas) hlast
    · exact Transaction.has_storeAll.2 (.inr (Tables.has_put_of_has h.there _))
    · rw [List.map_append, List.mem_append, not_or, List.map_singleton, List.mem_singleton] at hi
      rw [Transaction.nodes_storeAll, enroll, Transaction.view_store, Tables.nodes_put_node,
        if_neg (Ne.symm hi.2)]
      exact h.nodes i hi.1
    · rw [agentsIn_congr (Transaction.nodes_storeAll _ _)]
      exact agentsIn_put_member h.keyed h.members hnodup hrole halive

/-- Agents that are stored and alive are added to a network that has none, in a transaction that may
write and where no vector has an identifier that is drawn until `last`. Each is wired to those that
were added before it, and these stand in the order of their creation. -/
theorem addAgents_ok (hmode : tx.mode = .readWrite) (hkeyed : tx.view.Keyed)
    (hunused : tx.view.Unused .vector mint.ids last)
    (hthere : tx.view.has (.network network.id)) (hnone : network.agentsIn tx.view = [])
    (hnodup : (agents.map (·.id)).Nodup)
    (hstored : ∀ a ∈ agents, tx.view.nodes[a.id]? = some a ∧ a.kind.role = .agent ∧ a.isAlive)
    (hlast : (final (network.addAgents agents { tx, mint })).mint.ids.given <+: last.given) :
    ∃ made tx' mint',
      network.addAgents agents { tx, mint } = .ok made { tx := tx', mint := mint' } ∧
      made.map (·.map fun v => (v.origin, v.destination)) =
        network.kind.wired (sort Node.chronological) agents ∧
      network.Gathered last agents tx tx' mint' := by
  induction agents using List.reverseRecOn with
  | nil => exact ⟨[], tx, mint, rfl, rfl, hmode, hkeyed, hunused, hthere, fun _ _ => rfl, hnone⟩
  | append_singleton agents a ih =>
    have hbefore : (agents.map (·.id)).Nodup := by
      rw [List.map_append, List.nodup_append] at hnodup
      exact hnodup.1
    -- what was given out before the last agent is the beginning of what is given out in the end
    have hfirst : (final (network.addAgents agents { tx, mint })).mint.ids.given <+:
        last.given := by
      rw [addAgents_concat] at hlast
      exact (Draws.prefix_bind _ (fun _ =>
        .bind (network.draws_addAgent.through a) fun _ => .pure _) _).trans hlast
    obtain ⟨made, tx', mint', hmade, hends, hgathered⟩ := ih hbefore
      (fun b hb => hstored b (List.mem_append_left _ hb)) hfirst
    obtain ⟨ha, hrole, halive⟩ := hstored a List.mem_concat_self
    have hsecond : (final (Holding.through a network.addAgent
        { tx := tx', mint := mint' })).mint.ids.given <+: last.given := by
      rw [addAgents_concat, Op.bind_of_ok hmade] at hlast
      exact (Draws.prefix_bind (Holding.through a network.addAgent)
        (fun vectors => Draws.pure (made ++ [vectors])) { tx := tx', mint := mint' }).trans hlast
    obtain ⟨vectors, tx'', mint'', hadd, hwired, hall⟩ :=
      hgathered.add hnodup ha hrole halive hsecond
    refine ⟨made ++ [vectors], tx'', mint'', ?_, ?_, hall⟩
    · rw [addAgents_concat, Op.bind_of_ok hmade, Op.bind_of_ok hadd]
      rfl
    · rw [List.map_append, hends, List.map_singleton, hwired, NetworkKind.wired_concat]

/-- Agents that are stored and alive are added to a network that has none, in one transaction that
may write and where no vector has an identifier that is drawn. Each is wired to those that were
added before it, as the kind of the network has it, if these are taken in the order of their
creation. In a chain this is what the order of adding makes of it exactly if all agents but the last
were added in the order in which they were created, and in a star exactly if none of them was
created before the first. -/
theorem addAgents_chronological (hmode : tx.mode = .readWrite) (hkeyed : tx.view.Keyed)
    (hunused : tx.view.Unused .vector mint.ids
      (final (network.addAgents agents { tx, mint })).mint.ids)
    (hthere : tx.view.has (.network network.id)) (hnone : network.agentsIn tx.view = [])
    (hnodup : (agents.map (·.id)).Nodup)
    (hstored : ∀ a ∈ agents, tx.view.nodes[a.id]? = some a ∧ a.kind.role = .agent ∧ a.isAlive) :
    ∃ made scene, network.addAgents agents { tx, mint } = .ok made scene ∧
      let ends := made.map (·.map fun v => (v.origin, v.destination))
      ends = network.kind.wired (sort Node.chronological) agents ∧
      (network.kind = .chain → (ends = network.kind.wired (fun before => before) agents ↔
        agents.dropLast.Pairwise fun a b => (Node.chronological a b).isLE)) ∧
      (network.kind = .star → (ends = network.kind.wired (fun before => before) agents ↔
        ∀ hub, agents.head? = some hub →
          ∀ a ∈ agents.dropLast, (Node.chronological hub a).isLE)) := by
  obtain ⟨made, tx', mint', hmade, hends, -⟩ :=
    addAgents_ok hmode hkeyed hunused hthere hnone hnodup hstored List.prefix_rfl
  refine ⟨made, _, hmade, hends, fun hkind => ?_, fun hkind => ?_⟩
  · rw [hends, hkind]
    exact NetworkKind.wired_chain_iff hnodup
  · rw [hends, hkind]
    exact NetworkKind.wired_star_iff hnodup

end AddAgents

/-- A chain without members, and three agents of which each was created before the next. -/
def outset : Scene where
  tx :=
    { id := ⟨1⟩, mode := .readWrite, isolation := .readCommitted, beginVersion := 0
      view := [.network chain, .node (.numbered 1), .node (.numbered 2), .node (.numbered 3)].foldl
        (fun t r => t.put r) {} }
  mint := { Mint.still with ids := { Mint.still.ids with drawn := 4 } }
where
  chain : Network := { id := ⟨0⟩, kind := .chain, creationTime := .ofMoment .first }

/-- The second agent is added first and the first one second: both the first and the third agent
are led to by the second, and it is not the one before the third. -/
theorem addAgents_chronological_outset :
    ∃ made scene, outset.chain.addAgents [.numbered 2, .numbered 1, .numbered 3] outset =
        .ok made scene ∧
      made.map (·.map fun v => (v.origin, v.destination)) =
        [[], [(⟨2⟩, ⟨1⟩)], [(⟨2⟩, ⟨3⟩)]] := by
  have hkeyed : ((((({} : Tables).put (.network outset.chain)).put (.node (.numbered 1))).put
      (.node (.numbered 2))).put (.node (.numbered 3))).Keyed :=
    (((Tables.keyed_empty.put _).put _).put _).put _
  have hunused : outset.tx.view.Unused .vector outset.mint.ids (final (outset.chain.addAgents
      [.numbered 2, .numbered 1, .numbered 3] outset)).mint.ids := by
    decide +kernel
  have hstored : ∀ a ∈ [Node.numbered 2, .numbered 1, .numbered 3],
      outset.tx.view.nodes[a.id]? = some a ∧ a.kind.role = .agent ∧ a.isAlive := by
    rw [List.forall_mem_cons, List.forall_mem_cons, List.forall_mem_singleton]
    exact ⟨⟨rfl, rfl, rfl⟩, ⟨rfl, rfl, rfl⟩, ⟨rfl, rfl, rfl⟩⟩
  have hnodup : ([Node.numbered 2, .numbered 1, .numbered 3].map (·.id)).Nodup := by decide
  obtain ⟨made, scene, hmade, hends, -⟩ := @addAgents_chronological outset.chain
    [.numbered 2, .numbered 1, .numbered 3] outset.tx outset.mint rfl hkeyed hunused rfl rfl hnodup
    hstored
  exact ⟨made, scene, hmade, hends.trans (by decide +kernel)⟩

/-- A network is made, then agents, and these are added in some order. What is answered are the
ends of the vectors, each as its place among the agents that were added. -/
def muster (kind : NetworkKind) (agents : Nat) (order : List Nat) :
    Op (List (List (Nat × Nat))) := do
  let network ← create kind
  let created ← (List.replicate agents NodeKind.agent).mapM Node.create
  let added := order.filterMap (created[·]?)
  let made ← network.addAgents added
  let place := fun i => added.findIdx (·.id = i)
  return made.map (·.map fun v => (place v.origin, place v.destination))

/-- Three agents are added in two runs. In the one they were created in this order, in the other the
second was created before the first: then the third agent of a chain is led to by the first and not
by the second, and the third agent of a star is joined with the second and not with the first. -/
theorem muster_depends_on_creation :
    let begun : Scene :=
      { tx := ({} : Committed).opened ⟨1⟩ .readWrite .serializable, mint := .still }
    outcome (muster .chain 3 [0, 1, 2] begun) = .ok [[], [(0, 1)], [(1, 2)]] ∧
    outcome (muster .chain 3 [1, 0, 2] begun) = .ok [[], [(0, 1)], [(0, 2)]] ∧
    outcome (muster .star 3 [0, 1, 2] begun) =
      .ok [[], [(0, 1), (1, 0)], [(0, 2), (2, 0)]] ∧
    outcome (muster .star 3 [1, 0, 2] begun) =
      .ok [[], [(0, 1), (1, 0)], [(1, 2), (2, 1)]] := by
  decide +kernel

end Network

end Propagation
