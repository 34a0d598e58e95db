import Propagation.Proofs.Descent
import Propagation.Proofs.Looking

/-!
# Searching for vectors

There are three ways to search for vectors: through the list of those that leave a node, through the
list of those that enter one, and through the whole table. Which one is taken depends on the ends
that the query names. Where the lists agree with the table, the answer does not depend on it: it is
what a search of the whole table would find.

The lists agree with the table as long as requests do what they do. What is stored under a new
identifier is entered at its two ends, which may be one node, and what is stored again is not
entered again, whatever became of it.

## Main definitions

* `Side.near`: the end of a vector that is at a node.
* `Tables.Lists`, `Tables.Indexed`: the lists of an index, and both indexes, agree with the table.
* `VectorQuery.Fits`: a vector has all that a query sets.
* `Tables.Finds`: what a query should find, in the order in which it should.

## Main statements

* `Tables.linked_iff`: to agree is to be in step.
* `Tables.Indexed.finds_selectVectors`: a query finds what it should.
* `Transaction.Becomes.finds_vectors`: requests keep the indexes and find what they should.
-/

namespace Propagation

open Std (ExtTreeMap)

/-- The end of a vector at this side of a node. -/
def Side.near : Side → Vector → NodeId
  | outgoing, v => v.origin
  | incoming, v => v.destination

/-- The vector `v` has all that the query `q` sets. The network that counts is that of its origin as
it is stored in `t`. -/
structure VectorQuery.Fits (q : VectorQuery) (t : Tables) (v : Vector) : Prop where
  origin : ∀ n, q.origin = some n → v.origin = n
  destination : ∀ n, q.destination = some n → v.destination = n
  status : ∀ s, q.status = some s → v.status = s
  network : ∀ i, q.network = some i → ∃ n, t.nodes[v.origin]? = some n ∧ n.network = some i

theorem VectorQuery.matches_iff {q : VectorQuery} {t : Tables} {v : Vector} :
    q.matches t v ↔ q.Fits t v := by
  simp only [VectorQuery.matches, Bool.and_eq_true, Option.all_eq_true, Option.any_eq_true,
    decide_eq_true_eq]
  constructor
  · rintro ⟨⟨⟨ho, hd⟩, hs⟩, hn⟩
    exact ⟨ho, hd, hs, hn⟩
  · rintro ⟨ho, hd, hs, hn⟩
    exact ⟨⟨⟨ho, hd⟩, hs⟩, hn⟩

namespace Tables

/-! ## Indexes that agree with the table -/

/-- The lists of an index hold each vector of the table once, at its node `f`, and nothing else. -/
structure Lists (f : Vector → NodeId) (vectors : ExtTreeMap VectorId Vector)
    (index : ExtTreeMap NodeId (List VectorId)) : Prop where
  count_eq_one : ∀ (i : VectorId) v, vectors[i]? = some v → (index.getD (f v) []).count i = 1
  of_mem : ∀ (n : NodeId) i, i ∈ index.getD n [] → ∃ v, vectors[i]? = some v ∧ f v = n

/-- Each vector of `t` stands under its identifier, which is once in the list of its origin and once
in that of its destination. Nothing else is in these lists. -/
structure Indexed (t : Tables) : Prop where
  keyed : ∀ (i : VectorId) v, t.vectors[i]? = some v → v.id = i
  outgoing : Lists Vector.origin t.vectors t.outgoing
  incoming : Lists Vector.destination t.vectors t.incoming

/-- An index lists all vectors just if it lists what is new on top of no vectors. -/
theorem listsNew_empty_iff {f : Vector → NodeId} {vectors : ExtTreeMap VectorId Vector}
    {index : ExtTreeMap NodeId (List VectorId)} :
    ListsNew f ∅ vectors ∅ index ↔ Lists f vectors index := by
  constructor
  · intro h
    have hcount (n : NodeId) (i : VectorId) :
        (index.getD n []).count i = if vectors[i]?.any (f · = n) then 1 else 0 := by
      simpa using h n i
    refine ⟨fun i v hv => by simp [hcount, hv], fun n i hi => ?_⟩
    have hpos := List.count_pos_iff.2 hi
    rw [hcount] at hpos
    split at hpos
    · rename_i hany
      simpa [Option.any_eq_true] using hany
    · omega
  · intro h n i
    by_cases hi : ∃ v, vectors[i]? = some v ∧ f v = n
    · obtain ⟨v, hv, rfl⟩ := hi
      simpa [hv] using h.count_eq_one i v hv
    · have hzero : (index.getD n []).count i = 0 :=
        List.count_eq_zero.2 fun hmem => hi (h.of_mem n i hmem)
      rw [hzero]
      simpa [Option.any_eq_true] using hi

/-- The indexes agree with the table just if they are `Linked`. -/
theorem linked_iff {t : Tables} : t.Linked ↔ Lists Vector.origin t.vectors t.outgoing ∧
    Lists Vector.destination t.vectors t.incoming := by
  rw [← listsNew_empty_iff, ← listsNew_empty_iff]
  exact ⟨fun h => ⟨h.outgoing, h.incoming⟩,
    fun h => ⟨fun _ _ => ExtTreeMap.getElem?_empty, h.1, h.2⟩⟩

theorem Linked.indexed {t : Tables} (h : t.Linked)
    (hid : ∀ (i : VectorId) v, t.vectors[i]? = some v → v.id = i) : t.Indexed :=
  ⟨hid, (linked_iff.1 h).1, (linked_iff.1 h).2⟩

theorem Linked.indexed_of_keyed {t : Tables} (h : t.Linked) (hkeyed : t.Keyed) : t.Indexed :=
  h.indexed fun _ _ hv => Key.vector.inj (hkeyed _ _ (find?_vector.2 hv))

theorem Indexed.linked {t : Tables} (h : t.Indexed) : t.Linked :=
  linked_iff.2 ⟨h.outgoing, h.incoming⟩

theorem indexed_empty : ({} : Tables).Indexed :=
  linked_empty.indexed fun i v h => by simp at h

/-- A record `r` that is stored where it is allowed leaves the indexes in agreement. -/
theorem Indexed.put {t : Tables} (h : t.Indexed) {r : Record} (hr : t.Allows r) :
    (t.put r).Indexed := by
  refine Linked.indexed (h.linked.put hr) fun i v hv => ?_
  have hfind := find?_vector.2 hv
  rw [find?_put] at hfind
  split at hfind
  · rename_i hkey
    cases hfind
    exact Key.vector.inj hkey
  · exact h.keyed i v (find?_vector.1 hfind)

/-! ## What a query finds -/

/-- The vectors in `found` are the stored ones that have all that `q` sets, each once, in the order
of their creation times and, where these are equal, of their identifiers. -/
structure Finds (t : Tables) (q : VectorQuery) (found : List Vector) : Prop where
  mem_iff : ∀ v, v ∈ found ↔ t.vectors[v.id]? = some v ∧ q.Fits t v
  nodup : (found.map (·.id)).Nodup
  ordered : found.Pairwise fun v w => v.chronological w = .lt

/-- Whichever way the query `q` takes, it finds what it should. -/
theorem Indexed.finds_selectVectors {t : Tables} (h : t.Indexed) (q : VectorQuery) :
    t.Finds q (t.selectVectors q) := by
  have hids : (((rows t.vectors).filter (q.matches t)).map (·.id)).Nodup :=
    (rows_nodup h.keyed).sublist (List.filter_sublist.map _)
  rw [selectVectors_eq h.linked h.keyed q]
  refine ⟨fun v => ?_, ((sort_perm _ _).map _).nodup_iff.2 hids, ?_⟩
  · rw [mem_sort, List.mem_filter, mem_rows, VectorQuery.matches_iff]
    refine and_congr_left fun _ => ⟨?_, fun hv => ⟨_, hv⟩⟩
    rintro ⟨i, hv⟩
    rwa [h.keyed i v hv]
  · refine pairwise_lt_sort (List.Nodup.of_map _ hids) fun v hv w hw => ?_
    exact eq_of_chronological h.keyed (List.mem_filter.1 hv).1 (List.mem_filter.1 hw).1

end Tables

/-! ## Transactions -/

/-- Requests leave the indexes of a view in agreement. -/
theorem Transaction.Becomes.indexed_view {P : Request → Prop} {tx tx' : Transaction}
    (h : tx.Becomes P tx') (htx : tx.view.Indexed) : tx'.view.Indexed :=
  h.view_induction (Q := Tables.Indexed)
    (fun _ _ _ _ hwrites ht => ht.put (Request.allows_of_writes hwrites)) htx

/-- If the indexes of a view agree with the table, they do after any requests. Every query is then
answered with what it should find, and counted with the number of that. -/
theorem Transaction.Becomes.finds_vectors {tx tx' : Transaction} (h : tx.Becomes AnyRequest tx')
    (hindexed : tx.view.Indexed) : tx'.view.Indexed ∧ ∀ q, ∃ found,
      (Access.vectors q).Answers tx' (.ok found) ∧
      (Access.countVectors q).Answers tx' (.ok found.length) ∧ tx'.view.Finds q found := by
  have hindexed' := h.indexed_view hindexed
  refine ⟨hindexed', fun q =>
    ⟨_, Access.answers_vectors q tx', Access.answers_countVectors q tx', ?_⟩⟩
  exact hindexed'.finds_selectVectors q

/-- A node of a network leads to itself, and another node leads to it. -/
def Request.loop : List Request :=
  [.insert (.network { id := ⟨9⟩, kind := .base, creationTime := .ofMoment .first }),
    .insert (.node { Node.numbered 1 with network := some ⟨9⟩ }), .insert (.node (.numbered 2)),
    .insert (.vector (.numbered 3 1 1)), .insert (.vector (.numbered 4 2 1))]

/-- The node leads to itself once more, and the first of the two vectors dies. -/
def Request.relooped : List Request :=
  [.insert (.vector (.numbered 5 1 1)),
    .revise (.vector { Vector.numbered 3 1 1 with status := .dead })]

/-- A transaction that begins with the tables `t`. -/
private def Tables.opened (t : Tables) : Transaction :=
  Committed.opened { tables := t } ⟨1⟩ .readWrite .serializable

/-- Both vectors from the node to itself enter it, each once, and come from its network. -/
theorem Transaction.Becomes.finds_vectors_relooped :
    ∃ tx tx' : Transaction, tx.view.Indexed ∧ tx' = Request.afterAll Request.relooped tx ∧
      tx'.view.Indexed ∧ ∃ found,
        (Access.vectors { destination := some ⟨1⟩, network := some ⟨9⟩ }).Answers tx' (.ok found) ∧
        tx'.view.Finds { destination := some ⟨1⟩, network := some ⟨9⟩ } found ∧
        found.map (fun v => (v.id, v.status)) = [(⟨3⟩, .dead), (⟨5⟩, .alive)] := by
  let tx := (Request.afterAll Request.loop ({} : Tables).opened).view.opened
  have hstart : tx.view.Indexed :=
    (afterAll Request.loop ({} : Tables).opened).indexed_view Tables.indexed_empty
  obtain ⟨hindexed, hfinds⟩ :=
    Transaction.Becomes.finds_vectors (afterAll Request.relooped tx) hstart
  obtain ⟨found, hanswers, -, hfound⟩ := hfinds { destination := some ⟨1⟩, network := some ⟨9⟩ }
  refine ⟨tx, _, hstart, rfl, hindexed, found, hanswers, hfound, ?_⟩
  cases (Access.answers_vectors _ _).outcome.symm.trans hanswers.outcome
  decide +kernel

/-- In the world of a history in which no key was given out twice, the indexes of every view agree
with the vectors. -/
theorem World.indexed_view {mint : Mint} {events : List Event} {name : Nat} {s : Session Trace}
    (hs : (run mint events).sessions name = some s) (hborn : (run mint events).BornOnce) :
    s.tx.view.Indexed := by
  have hsound := sound_run mint events
  exact ((linked_run mint events hborn).view hsound hs).indexed_of_keyed
    (hsound.sessions name s hs).keyed_view

end Propagation
