import Propagation.Proofs.Integrity
import Propagation.Proofs.Searching

/-!
# Neighbours of a node

The neighbours of a node are read off the vectors at one of its sides, one vector after the other:
the node across is a neighbour if it was not across an earlier vector. So each neighbour is there
once, however many vectors lead to it, and stands where its first vector stands.

A vector leaves its origin just as it enters its destination. Although the two sides are looked up
in different indexes, the successors of one node and the predecessors of another therefore tell the
same about a vector between them, and so does the question whether there is one.

## Main definitions

* `Tables.Spans`, `Tables.SpansFirst`: a vector spans two nodes, as the first of all that do.
* `Tables.Neighbours`: the nodes that should be found across the vectors, and their order.
* `Node.Connected`: what is asked about the connection of two nodes has one answer.

## Main statements

* `Node.neighbours_exact`: the neighbours that are found are those that should be.
* `Node.connected`: the ways to ask for a connection agree.
* `World.neighbours_agree`: in a history without twins, all this holds in every view.
-/

namespace Propagation

open Std (ExtTreeMap)

namespace Tables

/-- A stored vector at this side of `n` has `m` across, and has the status if one is given. -/
structure Spans (t : Tables) (side : Side) (status : Option VectorStatus) (n m : NodeId)
    (v : Vector) : Prop where
  stored : t.vectors[v.id]? = some v
  near : side.near v = n
  across : side.across v = m
  status : ∀ s, status = some s → v.status = s

/-- The vector `v` is the oldest one that spans the nodes `n` and `m`; of two that are equally old,
the one with the lower identifier. -/
structure SpansFirst (t : Tables) (side : Side) (status : Option VectorStatus) (n m : NodeId)
    (v : Vector) : Prop where
  spans : t.Spans side status n m v
  first : ∀ w, t.Spans side status n m w → w = v ∨ v.chronological w = .lt

/-- The nodes found are those, as they are stored, that the filter chooses and that some vector has
across from `n`. Each is there once, and they are ordered by the first vectors to have them. -/
structure Neighbours (t : Tables) (side : Side) (status : Option VectorStatus) (f : NodeFilter)
    (n : NodeId) (found : List Node) : Prop where
  mem_iff : ∀ m, m ∈ found ↔
    t.nodes[m.id]? = some m ∧ f.matches m ∧ ∃ v, t.Spans side status n m.id v
  nodup : (found.map (·.id)).Nodup
  ordered : found.Pairwise fun m m' => ∃ v v', t.SpansFirst side status n m.id v ∧
    t.SpansFirst side status n m'.id v' ∧ v.chronological v' = .lt

section Spans

variable {t : Tables} {side : Side} {status : Option VectorStatus} {n m : NodeId} {v : Vector}

/-- The vector `v` enters `n` from `m` just if it leaves `m` for `n`. -/
theorem spans_incoming_iff :
    t.Spans .incoming status n m v ↔ t.Spans .outgoing status m n v :=
  ⟨fun h => ⟨h.stored, h.across, h.near, h.status⟩, fun h => ⟨h.stored, h.across, h.near, h.status⟩⟩

/-- A vector of the status `status` is a vector. -/
theorem Spans.anyStatus (h : t.Spans side status n m v) : t.Spans side none n m v :=
  ⟨h.stored, h.near, h.across, nofun⟩

/-- A search at one `side` of a node finds the vectors that span it and another node. -/
theorem mem_selectVectors_side (ht : t.Indexed) : v ∈ t.selectVectors { side.query n with status } ↔
    t.Spans side status n (side.across v) v := by
  rw [(ht.finds_selectVectors _).mem_iff]
  constructor
  · rintro ⟨hv, hfits⟩
    refine ⟨hv, ?_, rfl, hfits.status⟩
    cases side with
    | outgoing => exact hfits.origin n rfl
    | incoming => exact hfits.destination n rfl
  · intro h
    refine ⟨h.stored, ?_⟩
    cases side with
    | outgoing => exact ⟨by rintro _ ⟨⟩; exact h.near, nofun, h.status, nofun⟩
    | incoming => exact ⟨nofun, by rintro _ ⟨⟩; exact h.near, h.status, nofun⟩

/-- A search between two nodes finds the vectors that `Spans` allows. -/
theorem mem_selectVectors_between (ht : t.Indexed) :
    v ∈ t.selectVectors { origin := some n, destination := some m, status } ↔
      t.Spans .outgoing status n m v := by
  rw [(ht.finds_selectVectors _).mem_iff]
  constructor
  · rintro ⟨hv, hfits⟩
    exact ⟨hv, hfits.origin n rfl, hfits.destination m rfl, hfits.status⟩
  · intro h
    refine ⟨h.stored, ?_, ?_, h.status, nofun⟩
    · rintro _ ⟨⟩
      exact h.near
    · rintro _ ⟨⟩
      exact h.across

/-- Of the vectors at one `side` of a node, those that stay when each node across counts once are
the first ones. -/
theorem spansFirst_of_mem_distinct (ht : t.Indexed)
    (hv : v ∈ distinct side.across (t.selectVectors { side.query n with status })) :
    t.SpansFirst side status n (side.across v) v := by
  refine ⟨(mem_selectVectors_side ht).1 ((distinct_sublist _ _).mem hv), fun w hw => ?_⟩
  refine eq_or_of_mem_distinct (ht.finds_selectVectors _).ordered hv ?_ hw.across
  refine (mem_selectVectors_side ht).2 ?_
  rw [hw.across]
  exact hw

end Spans

/-- The nodes across the vectors at one `side`, each looked up once and then chosen by `f`, are the
neighbours. -/
theorem neighbours_select {t : Tables} (ht : t.Indexed)
    (hnodes : ∀ (i : NodeId) m, t.nodes[i]? = some m → m.id = i) (side : Side)
    (status : Option VectorStatus) (f : NodeFilter) (n : NodeId) :
    t.Neighbours side status f n (((distinct (fun i => i)
      ((t.selectVectors { side.query n with status }).map side.across)).filterMap
        (t.nodes[·]?)).filter f.matches) := by
  refine ⟨fun m => ?_, ?_, ?_⟩
  · have hacross : ∀ i, i ∈ distinct (fun i => i)
        ((t.selectVectors { side.query n with status }).map side.across) ↔
          ∃ v, t.Spans side status n i v := by
      intro i
      rw [← List.map_id' (distinct _ _), mem_map_distinct, List.map_id', List.mem_map]
      constructor
      · rintro ⟨v, hv, rfl⟩
        exact ⟨v, (mem_selectVectors_side ht).1 hv⟩
      · rintro ⟨v, hv⟩
        obtain rfl := hv.across
        exact ⟨v, (mem_selectVectors_side ht).2 hv, rfl⟩
    simp only [List.mem_filter, List.mem_filterMap, hacross]
    constructor
    · rintro ⟨⟨i, hspans, hm⟩, hf⟩
      obtain rfl := hnodes i m hm
      exact ⟨hm, hf, hspans⟩
    · rintro ⟨hm, hf, hspans⟩
      exact ⟨⟨m.id, hspans, hm⟩, hf⟩
  · rw [filterMap_distinct (·.id) hnodes]
    exact (nodup_map_distinct _ _).sublist (List.filter_sublist.map _)
  · -- The nodes are looked up across the first vectors, which stand in their order.
    rw [← map_distinct, List.filterMap_map]
    refine .filter _ (List.pairwise_filterMap.2 ?_)
    have hordered := (ht.finds_selectVectors { side.query n with status }).ordered
    refine (hordered.sublist (distinct_sublist side.across _)).imp_of_mem ?_
    intro v v' hv hv' hlt m hm m' hm'
    rw [hnodes _ m hm, hnodes _ m' hm']
    exact ⟨v, v', spansFirst_of_mem_distinct ht hv, spansFirst_of_mem_distinct ht hv', hlt⟩

end Tables

namespace Node

variable {tx : Transaction}

/-- The `neighbours` of a node are found, and are those that they should be. -/
theorem neighbours_exact (hindexed : tx.view.Indexed) (hintact : tx.view.Intact) (side : Side)
    (status : Option VectorStatus) (f : NodeFilter) (n : Node) : ∃ found,
      (n.neighbours side status f).Answers tx (.ok found) ∧
        tx.view.Neighbours side status f n.id found :=
  ⟨_, answers_neighbours hintact side status f n,
    Tables.neighbours_select hindexed (fun i m hm => (hintact.node i m hm).1) side status f n.id⟩

/-- Whether there is a vector between `a` and `b` is answered by counting them. -/
theorem answers_countBetween (hindexed : tx.view.Indexed) (status : Option VectorStatus)
    (a b : Node) : ∃ linked : Bool,
      (do return 0 < (← Access.countVectors
          { origin := some a.id, destination := some b.id, status }) : Access Bool).Answers tx (.ok linked) ∧
      (linked ↔ ∃ v, tx.view.Spans .outgoing status a.id b.id v) := by
  refine ⟨_, (Access.answers_countVectors _ tx).map _, ?_⟩
  rw [decide_eq_true_eq, List.length_pos_iff_exists_mem]
  simp only [Tables.mem_selectVectors_between hindexed]

/-- Wherever one asks whether a vector leads from one node to another, the answer is the same: of
the vectors between the two, of the successors of the first and of the predecessors of the second.
If only vectors count that are alive, it is the same of the vectors and of the successors. -/
structure Connected (tx : Transaction) (a b : Node) (linked linkedAlive : Bool) : Prop where
  leadsTo : (a.leadsTo b).Answers tx (.ok linked)
  reachedFrom : (b.reachedFrom a).Answers tx (.ok linked)
  leadsToAlive : (a.leadsToAlive b).Answers tx (.ok linkedAlive)
  successors : ∃ found, (a.successors .any).Answers tx (.ok found) ∧ (b ∈ found ↔ linked)
  predecessors : ∃ found, (b.predecessors .any).Answers tx (.ok found) ∧ (a ∈ found ↔ linked)
  liveSuccessors : ∃ found,
    (a.liveSuccessors .any).Answers tx (.ok found) ∧ (b ∈ found ↔ linkedAlive)

theorem connected (hindexed : tx.view.Indexed) (hintact : tx.view.Intact) {a b : Node}
    (ha : tx.view.nodes[a.id]? = some a) (hb : tx.view.nodes[b.id]? = some b) :
    ∃ linked linkedAlive, Connected tx a b linked linkedAlive := by
  obtain ⟨linked, hlinked, hiff⟩ := answers_countBetween hindexed none a b
  obtain ⟨linkedAlive, halive, hiffAlive⟩ := answers_countBetween hindexed (some .alive) a b
  refine ⟨linked, linkedAlive, hlinked, hlinked, halive, ?_, ?_, ?_⟩
  · obtain ⟨found, hfound, hexact⟩ := neighbours_exact hindexed hintact .outgoing none .any a
    refine ⟨found, hfound, ?_⟩
    rw [hexact.mem_iff, hiff]
    simp [hb, NodeFilter.matches]
  · obtain ⟨found, hfound, hexact⟩ := neighbours_exact hindexed hintact .incoming none .any b
    refine ⟨found, hfound, ?_⟩
    rw [hexact.mem_iff, hiff]
    simp [ha, NodeFilter.matches, Tables.spans_incoming_iff]
  · obtain ⟨found, hfound, hexact⟩ :=
      neighbours_exact hindexed hintact .outgoing (some .alive) .any a
    refine ⟨found, hfound, ?_⟩
    rw [hexact.mem_iff, hiffAlive]
    simp [hb, NodeFilter.matches]

end Node

namespace World

/-- In every view of a history in which no key was given out twice, the successors, predecessors and
live successors of a node are found and are those that they should be, the live ones among the
successors, and all ways to ask for a connection of two nodes agree. -/
theorem neighbours_agree {mint : Mint} {events : List Event} {name : Nat} {s : Session Trace}
    (hs : (run mint events).sessions name = some s) (hborn : (run mint events).BornOnce) :
    (∀ (a : Node) f, ∃ successors predecessors live,
      (a.successors f).Answers s.tx (.ok successors) ∧
      s.tx.view.Neighbours .outgoing none f a.id successors ∧
      (a.predecessors f).Answers s.tx (.ok predecessors) ∧
      s.tx.view.Neighbours .incoming none f a.id predecessors ∧
      (a.liveSuccessors f).Answers s.tx (.ok live) ∧
      s.tx.view.Neighbours .outgoing (some .alive) f a.id live ∧ live ⊆ successors) ∧
    ∀ a b : Node, s.tx.view.nodes[a.id]? = some a → s.tx.view.nodes[b.id]? = some b →
      ∃ linked linkedAlive, Node.Connected s.tx a b linked linkedAlive := by
  have hindexed := indexed_view hs hborn
  have hintact := ((reachable_run mint events).referential_integrity.2 name s hs).1
  refine ⟨fun a f => ?_, fun a b ha hb => Node.connected hindexed hintact ha hb⟩
  obtain ⟨successors, hanswer, hexact⟩ := a.neighbours_exact hindexed hintact .outgoing none f
  obtain ⟨predecessors, hanswer', hexact'⟩ := a.neighbours_exact hindexed hintact .incoming none f
  obtain ⟨live, hanswerLive, hexactLive⟩ :=
    a.neighbours_exact hindexed hintact .outgoing (some .alive) f
  refine ⟨successors, predecessors, live, hanswer, hexact, hanswer', hexact', hanswerLive,
    hexactLive, fun m hm => ?_⟩
  obtain ⟨hstored, hf, v, hv⟩ := (hexactLive.mem_iff m).1 hm
  exact (hexact.mem_iff m).2 ⟨hstored, hf, v, hv.anyStatus⟩

/-- Of the vectors that leave the first node, two lead to the second node, one to the first itself
and one to the third. The oldest one and the last one are dead. -/
def star : List Event :=
  [.begin 0 .readWrite .serializable, .ask 0 (.insert (.node (.numbered 1))),
    .ask 0 (.insert (.node (.numbered 2))), .ask 0 (.insert (.node (.numbered 3))),
    .ask 0 (.insert (.vector (.numbered 4 1 2))), .ask 0 (.insert (.vector (.numbered 5 1 1))),
    .ask 0 (.insert (.vector (.numbered 6 1 2))), .ask 0 (.insert (.vector (.numbered 7 1 3))),
    .commit 0, .begin 1 .readWrite .serializable, .ask 1 (.revise (dead 4 2)),
    .ask 1 (.revise (dead 7 3))]
where
  dead (n destination : Nat) : Revision :=
    .vector { Vector.numbered n 1 destination with status := .dead }

/-- The second node is still the first successor, and it is the last live one. The third node is not
live across the dead vector. -/
theorem neighbours_agree_star : ∃ s, (run .still star).sessions 1 = some s ∧
    (∃ successors live,
      s.tx.view.Neighbours .outgoing none .any ⟨1⟩ successors ∧
      s.tx.view.Neighbours .outgoing (some .alive) .any ⟨1⟩ live ∧ live ⊆ successors ∧
      successors.map (·.id) = [⟨2⟩, ⟨1⟩, ⟨3⟩] ∧ live.map (·.id) = [⟨1⟩, ⟨2⟩]) ∧
    Node.Connected s.tx (.numbered 1) (.numbered 3) true false := by
  obtain ⟨s, hs⟩ : ∃ s, (run .still star).sessions 1 = some s := ⟨_, rfl⟩
  have hborn : (run .still star).BornOnce := by decide +kernel
  -- The view is computed once; what follows is about any session with these answers.
  have hanswers : ∀ s ∈ (run .still star).sessions 1,
      (s.tx.view.nodes[(⟨1⟩ : NodeId)]? = some (.numbered 1) ∧
        s.tx.view.nodes[(⟨3⟩ : NodeId)]? = some (.numbered 3)) ∧
      (outcome ((Node.numbered 1).successors .any s.tx)).map (List.map (·.id)) =
        .ok [⟨2⟩, ⟨1⟩, ⟨3⟩] ∧
      (outcome ((Node.numbered 1).liveSuccessors .any s.tx)).map (List.map (·.id)) =
        .ok [⟨1⟩, ⟨2⟩] ∧
      outcome ((Node.numbered 1).leadsTo (.numbered 3) s.tx) = .ok true ∧
      outcome ((Node.numbered 1).leadsToAlive (.numbered 3) s.tx) = .ok false := by
    decide +kernel
  obtain ⟨⟨hfirst, hthird⟩, hids, hidsLive, hleads, hleadsAlive⟩ := hanswers s hs
  obtain ⟨hlists, hconnected⟩ := neighbours_agree hs hborn
  obtain ⟨successors, -, live, hanswer, hexact, -, -, hanswerLive, hexactLive, hsub⟩ :=
    hlists (.numbered 1) .any
  obtain ⟨linked, linkedAlive, hlinked⟩ := hconnected (.numbered 1) (.numbered 3) hfirst hthird
  rw [hanswer.outcome] at hids
  rw [hanswerLive.outcome] at hidsLive
  cases hlinked.leadsTo.outcome.symm.trans hleads
  cases hlinked.leadsToAlive.outcome.symm.trans hleadsAlive
  exact ⟨s, hs, ⟨successors, live, hexact, hexactLive, hsub, Except.ok.inj hids,
    Except.ok.inj hidsLive⟩, hlinked⟩

end World

end Propagation
