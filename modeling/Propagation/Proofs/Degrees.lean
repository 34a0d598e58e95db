import Propagation.Proofs.Ownership
import Propagation.Proofs.Searching
import Mathlib.Algebra.GroupWithZero.Nat

/-!
# Counting vectors at nodes

Every vector leaves one node and enters one node, and both are there. If the vectors that leave a
node are counted at each node, every vector is therefore counted once, and so it is where it enters.

The vectors of a network are those that leave its nodes. They are searched for in the whole table,
in chronological order, and then sorted by their ends, so that only parallel vectors stay in that
order. What leaves one node is searched for in an index. It comes to the same vectors.

## Main definitions

* `Vector.byEndsThenAge`: vectors by their ends, parallel ones in chronological order.

## Main statements

* `Tables.flatMap_selectVectors`: the vectors at some nodes, put together node by node.
* `World.degrees_account`: the degrees of all nodes add up to the number of vectors, and those of
  the nodes of a network to the number of its vectors.
-/

namespace Propagation

open Std (ExtTreeMap)

namespace Vector

instance : Std.TransCmp byEnds :=
  inferInstanceAs (Std.TransCmp (compareLex (compareOn origin) (compareOn destination)))

/-- Vectors by origin, then by destination, then by creation time, then by identifier. -/
def byEndsThenAge : Vector → Vector → Ordering := compareLex byEnds chronological

end Vector

namespace Tables

variable {t : Tables} (hindexed : t.Indexed)
include hindexed

/-- A search at one `side` of a node goes through an index and finds the rows that have the node at
this side. -/
theorem selectVectors_side_perm (side : Side) (n : NodeId) :
    (t.selectVectors (side.query n)).Perm
      ((rows t.vectors).filter fun v => some (side.near v) = some n) := by
  rw [selectVectors_eq hindexed.linked hindexed.keyed]
  refine (sort_perm _ _).trans (.of_eq (List.filter_congr fun v _ => ?_))
  cases side <;> simp [VectorQuery.matches, Side.query, Side.near]

/-- The vectors at `nodes`, put together node by node, are the rows that have one of them at this
`side`. -/
theorem flatMap_selectVectors (side : Side) {nodes : List Node}
    (hnodes : (nodes.map (·.id)).Nodup) :
    (nodes.flatMap fun n => t.selectVectors (side.query n.id)).Perm
      ((rows t.vectors).filter fun v => ∃ n ∈ nodes, side.near v = n.id) := by
  have howned := flatMap_owned (fun v => some (side.near v))
    (fun n => selectVectors_side_perm hindexed side n) hnodes
  simpa only [Option.some.injEq] using howned

variable (hintact : t.Intact)
include hintact

/-- Every vector is at one of the nodes, whichever `side` is looked at. -/
theorem flatMap_selectVectors_rows (side : Side) {nodes : List Node}
    (hnodes : nodes.Perm (rows t.nodes)) :
    (nodes.flatMap fun n => t.selectVectors (side.query n.id)).Perm (rows t.vectors) := by
  have hids : (nodes.map (·.id)).Nodup :=
    (hnodes.map _).nodup_iff.2 (rows_nodup fun i n h => (hintact.node i n h).1)
  refine (flatMap_selectVectors hindexed side hids).trans (.of_eq (List.filter_eq_self.2 ?_))
  intro v hv
  obtain ⟨i, hi⟩ := mem_rows.1 hv
  obtain ⟨-, horigin, hdestination⟩ := hintact.vector i v hi
  have hmem : side.near v ∈ t.nodes := by cases side <;> assumption
  obtain ⟨n, hn⟩ := Option.isSome_iff_exists.1 (ExtTreeMap.isSome_getElem?_iff_mem.2 hmem)
  refine decide_eq_true ⟨n, hnodes.mem_iff.2 (mem_rows.2 ⟨_, hn⟩), ?_⟩
  exact (hintact.node _ n hn).1.symm

/-- The vectors of a network are those that leave its `members`. -/
theorem selectVectors_network_perm (id : NetworkId) {members : List Node}
    (hmembers : members.Perm ((rows t.nodes).filter fun n => n.network = some id)) :
    (t.selectVectors { network := some id }).Perm
      (members.flatMap fun n => t.selectVectors (Side.outgoing.query n.id)) := by
  have hids : (members.map (·.id)).Nodup := by
    have hrows := rows_nodup fun i n h => (hintact.node i n h).1
    exact (hmembers.map _).nodup_iff.2 (hrows.sublist (List.filter_sublist.map _))
  refine (selectVectors_perm hintact id).trans ?_
  refine .trans (.of_eq (List.filter_congr fun v _ => decide_eq_decide.2 ?_))
    (flatMap_selectVectors hindexed .outgoing hids).symm
  have hsame := (selectNodes_perm t id).trans hmembers.symm
  simp only [hsame.mem_iff, Side.near]

end Tables

/-- To search at one `side` of several nodes is to search at each. -/
theorem Node.answers_mapM_vectors (side : Side) (nodes : List Node) (tx : Transaction) :
    (nodes.mapM fun n => Access.vectors (side.query n.id)).Answers tx
      (.ok (nodes.map fun n => tx.view.selectVectors (side.query n.id))) := by
  refine Access.Answers.mapM nodes fun n _ tx' htx' => ?_
  rw [← htx'.view_eq]
  exact Access.answers_vectors _ tx'

/-- The degrees of several nodes at one `side` add up to the number of vectors there. -/
theorem Node.answers_degrees (side : Side) (nodes : List Node) (tx : Transaction) : ∃ degrees,
    (nodes.mapM fun n => Access.countVectors (side.query n.id)).Answers tx (.ok degrees) ∧
      degrees.sum = (nodes.flatMap fun n => tx.view.selectVectors (side.query n.id)).length := by
  refine ⟨_, .mapM (g := fun n => (tx.view.selectVectors (side.query n.id)).length) nodes
    fun n _ tx' htx' => ?_, List.length_flatMap.symm⟩
  rw [← htx'.view_eq]
  exact Access.answers_countVectors _ tx'

namespace World

/-- In every view of a history in which no key was given out twice, the outdegrees of all nodes add
up to the number of vectors, and so do the indegrees. The vectors of a network are those that leave
its nodes, by their ends and parallel ones by age, and the outdegrees of its nodes add up to their
number. -/
theorem degrees_account {mint : Mint} {events : List Event} {name : Nat} {s : Session Trace}
    (hs : (run mint events).sessions name = some s) (hborn : (run mint events).BornOnce) :
    (∀ nodes : List Node, nodes.Perm (Tables.rows s.tx.view.nodes) →
      ∃ outdegrees indegrees, (nodes.mapM Node.outdegree).Answers s.tx (.ok outdegrees) ∧
        (nodes.mapM Node.indegree).Answers s.tx (.ok indegrees) ∧
        (Access.countVectors {}).Answers s.tx (.ok (Tables.rows s.tx.view.vectors).length) ∧
        outdegrees.sum = (Tables.rows s.tx.view.vectors).length ∧
        indegrees.sum = (Tables.rows s.tx.view.vectors).length) ∧
    ∀ (network : Network) (members : List Node),
      members.Perm ((Tables.rows s.tx.view.nodes).filter fun n => n.network = some network.id) →
      ∃ found parts outdegrees, network.vectors.Answers s.tx (.ok found) ∧
        (members.mapM Node.outgoing).Answers s.tx (.ok parts) ∧
        (members.mapM Node.outdegree).Answers s.tx (.ok outdegrees) ∧
        found.Perm parts.flatten ∧ (found.Pairwise fun v w => v.byEndsThenAge w = .lt) ∧
        found.length = outdegrees.sum := by
  have hindexed := indexed_view hs hborn
  have hintact := ((reachable_run mint events).referential_integrity.2 name s hs).1
  constructor
  · intro nodes hnodes
    obtain ⟨outdegrees, hout, houtSum⟩ := Node.answers_degrees .outgoing nodes s.tx
    obtain ⟨indegrees, hin, hinSum⟩ := Node.answers_degrees .incoming nodes s.tx
    have hall (side : Side) :=
      (Tables.flatMap_selectVectors_rows hindexed hintact side hnodes).length_eq
    have hcount := Access.answers_countVectors {} s.tx
    have hrows : (Tables.rows s.tx.view.vectors).filter (VectorQuery.matches {} s.tx.view) =
        Tables.rows s.tx.view.vectors := List.filter_eq_self.2 fun _ _ => rfl
    rw [Tables.selectVectors_eq hindexed.linked hindexed.keyed, length_sort, hrows] at hcount
    exact ⟨outdegrees, indegrees, hout, hin, hcount, houtSum.trans (hall .outgoing),
      hinSum.trans (hall .incoming)⟩
  · intro network members hmembers
    obtain ⟨outdegrees, hout, houtSum⟩ := Node.answers_degrees .outgoing members s.tx
    have hperm : (sort Vector.byEnds (s.tx.view.selectVectors { network := some network.id })).Perm
        (members.flatMap fun n => s.tx.view.selectVectors (Side.outgoing.query n.id)) :=
      (sort_perm _ _).trans
        (Tables.selectVectors_network_perm hindexed hintact network.id hmembers)
    refine ⟨_, _, outdegrees, (Access.answers_vectors _ s.tx).map _,
      Node.answers_mapM_vectors .outgoing members s.tx, hout, ?_, ?_, ?_⟩
    · rw [← List.flatMap_def]
      exact hperm
    · exact pairwise_compareLex_sort (hindexed.finds_selectVectors _).ordered
    · rw [hperm.length_eq, houtSum]

/-- A source and a dead agent of one network are joined by vectors in both directions, twice in one
of them, and the source leads to itself. A node outside of the network leads to the source. -/
def exchange : List Event :=
  [.begin 0 .readWrite .serializable, .ask 0 (.insert (.network network)),
    .ask 0 (.insert (.node { Node.numbered 1 with kind := .source, network := some ⟨9⟩ })),
    .ask 0 (.insert (.node { Node.numbered 2 with status := .dead, network := some ⟨9⟩ })),
    .ask 0 (.insert (.node (.numbered 3))), .ask 0 (.insert (.vector (.numbered 4 2 1))),
    .ask 0 (.insert (.vector (.numbered 5 1 2))), .commit 0,
    .begin 1 .readWrite .serializable, .ask 1 (.insert (.vector (.numbered 6 1 2))),
    .ask 1 (.insert (.vector (.numbered 7 3 1))), .ask 1 (.insert (.vector (.numbered 8 1 1)))]
where
  network : Network := { id := ⟨9⟩, kind := .base, creationTime := .ofMoment .first }

/-- Five vectors are counted at all nodes, and four at those of the network. -/
theorem degrees_account_exchange : ∃ s, (run .still exchange).sessions 1 = some s ∧
    (∃ outdegrees indegrees,
      ((Tables.rows s.tx.view.nodes).mapM Node.outdegree).Answers s.tx (.ok outdegrees) ∧
      ((Tables.rows s.tx.view.nodes).mapM Node.indegree).Answers s.tx (.ok indegrees) ∧
      outdegrees.sum = 5 ∧ indegrees.sum = 5) ∧
    ∃ found, exchange.network.vectors.Answers s.tx (.ok found) ∧
      (found.Pairwise fun v w => v.byEndsThenAge w = .lt) ∧
      found.map (·.id) = [⟨8⟩, ⟨5⟩, ⟨6⟩, ⟨4⟩] := by
  obtain ⟨s, hs⟩ : ∃ s, (run .still exchange).sessions 1 = some s := ⟨_, rfl⟩
  have hborn : (run .still exchange).BornOnce := by decide +kernel
  -- The answers are computed once; what follows is about any session that gives them.
  have hanswers : ∀ s ∈ (run .still exchange).sessions 1,
      (Tables.rows s.tx.view.vectors).length = 5 ∧
      (outcome (exchange.network.vectors s.tx)).map (List.map (·.id)) =
        .ok [⟨8⟩, ⟨5⟩, ⟨6⟩, ⟨4⟩] := by
    decide +kernel
  obtain ⟨hlength, hids⟩ := hanswers s hs
  obtain ⟨hall, hnetwork⟩ := degrees_account hs hborn
  obtain ⟨outdegrees, indegrees, hout, hin, -, houtSum, hinSum⟩ := hall _ (.refl _)
  obtain ⟨found, -, -, hfound, -, -, -, hordered, -⟩ := hnetwork exchange.network _ (.refl _)
  rw [hfound.outcome] at hids
  exact ⟨s, hs, ⟨outdegrees, indegrees, hout, hin, houtSum.trans hlength, hinSum.trans hlength⟩,
    found, hfound, hordered, Except.ok.inj hids⟩

end World

end Propagation
