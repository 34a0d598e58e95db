import Propagation.Proofs.Delivery
import Propagation.Proofs.Drawing
import Propagation.Proofs.Sending

/-!
# What joining a network does

An agent joins a network in two steps: the stored node is made a member, and then it is wired to
the agents before it. The first step fails without a trace, or it is made in a transaction that may
write. After it the second one can fail only for an identifier that is taken. So where no vector has
an identifier that is drawn, to join is all or nothing, and what it leaves is the view with the node
as a member and one new vector for each pair of ends.

## Main definitions

* `Vector.freshAll`: new vectors, one for each pair of ends.
* `Transaction.storeAll`: store several vectors.
* `Network.enroll`: make a stored node a member in a transaction.
* `Network.agentsIn`, `Network.endsIn`: the agents of a network in some tables, and the ends of the
  vectors that join another one to them.

## Main statements

* `Network.wire_ok`: to wire succeeds where the identifiers are unused.
* `Network.adopt_cases`, `Network.addAgent_adopts`: to adopt and to join fail without a trace, or
  the stored node becomes a member.
* `Network.addAgent_ok`, `Network.addSourceToAll_ok`: then the node is wired too.
* `Network.addAgent_cases`: to join fails without a trace or gives an agent all its vectors.
-/

namespace Propagation

open Std (ExtTreeMap)

/-! ## New vectors -/

namespace Vector

/-- New vectors, one for each pair in `ends`. -/
def freshAll (ends : List (NodeId × NodeId)) : Minting (List Vector) :=
  ends.mapM fun (origin, destination) => fresh origin destination

theorem freshAll_cons (p : NodeId × NodeId) (ends : List (NodeId × NodeId)) (m : Mint) :
    freshAll (p :: ends) m =
      ((fresh p.1 p.2 m).1 :: (freshAll ends (fresh p.1 p.2 m).2).1,
        (freshAll ends (fresh p.1 p.2 m).2).2) := by
  rw [freshAll, List.mapM_cons]
  rfl

/-- The vectors of `freshAll ends` have the ends that were asked for. -/
theorem ends_freshAll (ends : List (NodeId × NodeId)) (m : Mint) :
    (freshAll ends m).1.map (fun v => (v.origin, v.destination)) = ends := by
  induction ends generalizing m with
  | nil => rfl
  | cons p ends ih =>
    rw [freshAll_cons, List.map_cons, ih]
    rfl

/-- Each vector of `freshAll ends` takes the next identifier. -/
theorem given_freshAll (ends : List (NodeId × NodeId)) (m : Mint) :
    (freshAll ends m).2.ids.given =
      m.ids.given ++ (freshAll ends m).1.map (·.id.number) := by
  induction ends generalizing m with
  | nil => exact (List.append_nil _).symm
  | cons p ends ih =>
    rw [freshAll_cons, ih, given_fresh, List.append_assoc]
    rfl

end Vector

/-! ## Storing vectors -/

namespace Tables

theorem has_node_iff {t : Tables} {i : NodeId} : t.has (.node i) ↔ ∃ n, t.nodes[i]? = some n := by
  rw [has, find?, Option.isSome_map, Option.isSome_iff_exists]

theorem has_vector_iff {t : Tables} {i : VectorId} :
    t.has (.vector i) ↔ ∃ v, t.vectors[i]? = some v := by
  rw [has, find?, Option.isSome_map, Option.isSome_iff_exists]

/-- Under an identifier `i` that is free no node is found. -/
theorem nodes_ne_of_free {t : Tables} {i : NodeId} (h : t.has (.node i) = false) (n : Node) :
    t.nodes[i]? ≠ some n := by
  intro hn
  rw [has_node_iff.2 ⟨n, hn⟩] at h
  cases h

/-- Under an identifier `i` that is free no vector is found. -/
theorem vectors_ne_of_free {t : Tables} {i : VectorId} (h : t.has (.vector i) = false)
    (v : Vector) : t.vectors[i]? ≠ some v := by
  intro hv
  rw [has_vector_iff.2 ⟨v, hv⟩] at h
  cases h

theorem nodes_put_node (t : Tables) (n : Node) (i : NodeId) :
    (t.put (.node n)).nodes[i]? = if n.id = i then some n else t.nodes[i]? := by
  simp only [put, ExtTreeMap.getElem?_insert, Std.compare_eq_iff_eq]

@[simp] theorem nodes_put_vector (t : Tables) (v : Vector) :
    (t.put (.vector v)).nodes = t.nodes := by
  simp only [put, putVector, nodes_link]

@[simp] theorem nodes_putAll_vector (vectors : List Vector) (t : Tables) :
    (t.putAll (vectors.map .vector)).nodes = t.nodes := by
  induction vectors generalizing t with
  | nil => rfl
  | cons v vectors ih => rw [List.map_cons, putAll_cons, ih, nodes_put_vector]

/-- After `vectors` with different identifiers that were free are stored, these are found, and all
other vectors as before. -/
theorem vectors_putAll {vectors : List Vector} (hnodup : (vectors.map (·.id)).Nodup) {t : Tables}
    (hfree : ∀ v ∈ vectors, t.has (.vector v.id) = false) (i : VectorId) (v : Vector) :
    (t.putAll (vectors.map .vector)).vectors[i]? = some v ↔
      (v ∈ vectors ∧ v.id = i) ∨ t.vectors[i]? = some v := by
  have hkeys : ((vectors.map Record.vector).map Record.key).Nodup := by
    rw [List.map_map, show Record.key ∘ Record.vector = Key.vector ∘ Vector.id from rfl,
      ← List.map_map]
    exact hnodup.map fun _ _ => Key.vector.inj
  have hput : (t.putAll (vectors.map .vector)).vectors[i]? = some v ↔
      (v ∈ vectors ∧ v.id = i) ∨ ((∀ u ∈ vectors, u.id ≠ i) ∧ t.vectors[i]? = some v) := by
    rw [← find?_vector, find?_putAll hkeys, find?_vector]
    simp [Record.key]
  refine hput.trans (or_congr_right (and_iff_right_of_imp fun hv u hu hid => ?_))
  exact vectors_ne_of_free (hid ▸ hfree u hu) v hv

end Tables

namespace Transaction

/-- Store the vectors, one after the other, in the transaction `tx`. -/
def storeAll (vectors : List Vector) (tx : Transaction) : Transaction :=
  vectors.foldl (fun tx v => tx.store (.vector v)) tx

@[simp] theorem storeAll_cons (v : Vector) (vectors : List Vector) (tx : Transaction) :
    tx.storeAll (v :: vectors) = (tx.store (.vector v)).storeAll vectors := rfl

@[simp] theorem mem_writes_storeAll {vectors : List Vector} {tx : Transaction} {k : Key} :
    k ∈ (tx.storeAll vectors).writes ↔ (∃ v ∈ vectors, k = .vector v.id) ∨ k ∈ tx.writes := by
  induction vectors generalizing tx with
  | nil => simp [storeAll]
  | cons v vectors ih =>
    rw [storeAll_cons, ih, mem_writes_store, List.exists_mem_cons_iff, or_left_comm, or_assoc]
    rfl

@[simp] theorem scans_storeAll (vectors : List Vector) (tx : Transaction) :
    (tx.storeAll vectors).scans = tx.scans := by
  induction vectors generalizing tx with
  | nil => rfl
  | cons v vectors ih => rw [storeAll_cons, ih]; rfl

@[simp] theorem mode_storeAll (vectors : List Vector) (tx : Transaction) :
    (tx.storeAll vectors).mode = tx.mode := by
  induction vectors generalizing tx with
  | nil => rfl
  | cons v vectors ih => rw [storeAll_cons, ih]; rfl

theorem view_storeAll (vectors : List Vector) (tx : Transaction) :
    (tx.storeAll vectors).view = tx.view.putAll (vectors.map .vector) := by
  induction vectors generalizing tx with
  | nil => rfl
  | cons v vectors ih => rw [storeAll_cons, ih, view_store, List.map_cons, Tables.putAll_cons]

@[simp] theorem nodes_storeAll (vectors : List Vector) (tx : Transaction) :
    (tx.storeAll vectors).view.nodes = tx.view.nodes := by
  rw [view_storeAll, Tables.nodes_putAll_vector]

theorem keyed_storeAll {tx : Transaction} (h : tx.view.Keyed) (vectors : List Vector) :
    (tx.storeAll vectors).view.Keyed := by
  rw [view_storeAll]
  exact h.putAll _

theorem has_storeAll {vectors : List Vector} {tx : Transaction} {k : Key} :
    (tx.storeAll vectors).view.has k ↔ (∃ v ∈ vectors, k = .vector v.id) ∨ tx.view.has k := by
  rw [view_storeAll, Tables.has_putAll]
  simp [Record.key, @eq_comm _ k]

/-- Where the identifiers of vectors were given out by the mint, they still are once the vectors of
`freshAll ends` are stored. -/
theorem issued_storeAll {tx : Transaction} {mint : Mint} {e : Entity}
    (h : tx.view.IssuedBy mint.ids e) (ends : List (NodeId × NodeId)) :
    (tx.storeAll (Vector.freshAll ends mint).1).view.IssuedBy (Vector.freshAll ends mint).2.ids
      e := by
  intro k hk hhas
  rw [Vector.given_freshAll, List.mem_append]
  rcases has_storeAll.1 hhas with ⟨v, hv, rfl⟩ | hhas
  · exact .inr (List.mem_map.2 ⟨v, hv, rfl⟩)
  · exact .inl (h k hk hhas)

/-- Where vectors have got the first identifiers that are given out until `last`, the others are
unused. -/
theorem unused_storeAll {tx : Transaction} {mint : Mint} {e : Entity} {last : IdSource}
    (h : tx.view.Unused e mint.ids last) {ends : List (NodeId × NodeId)}
    (hlast : (Vector.freshAll ends mint).2.ids.given <+: last.given) :
    (tx.storeAll (Vector.freshAll ends mint).1).view.Unused e (Vector.freshAll ends mint).2.ids
      last := by
  rw [view_storeAll]
  refine h.putAll ?_ hlast
  rw [Vector.given_freshAll, List.map_map]
  rfl

end Transaction

/-! ## Wiring -/

/-- A record `r` whose key is free may be stored if what `r` refers to is there. -/
theorem Record.accept_of_free {t : Tables} {r : Record} (hnew : t.has r.key = false)
    (hreferences : ∀ k ∈ r.references, t.has k) : r.accept t = .ok () := by
  rw [accept, hnew, if_neg Bool.false_ne_true]
  exact Tables.requireAll_ok_iff.2 hreferences

/-- To connect two nodes that are there succeeds if the identifier of the new vector is free. -/
theorem Node.connect_ok {origin destination : NodeId} {tx : Transaction} {mint : Mint}
    (hmode : tx.mode = .readWrite) (horigin : tx.view.has (.node origin))
    (hdestination : tx.view.has (.node destination))
    (hnew : tx.view.has (.vector (Vector.fresh origin destination mint).1.id) = false) :
    Node.connect origin destination { tx, mint } =
      .ok (Vector.fresh origin destination mint).1
        { tx := tx.store (.vector (Vector.fresh origin destination mint).1)
          mint := (Vector.fresh origin destination mint).2 } := by
  have haccept : (Record.vector (Vector.fresh origin destination mint).1).accept tx.view = .ok () :=
    Record.accept_of_free hnew
      (List.forall_mem_cons.2 ⟨horigin, List.forall_mem_singleton.2 hdestination⟩)
  rw [connect, Op.bind_of_ok (Op.minting_apply _ _)]
  exact Op.bind_of_ok (Op.access_of_ok (Access.insert_of_accept haccept hmode))

/-- To connect two nodes fails if the new vector is not accepted, and has used the mint. -/
theorem Node.connect_refused {origin destination : NodeId} {tx : Transaction} {mint : Mint}
    {e : Error} (hrefused :
      (Record.vector (Vector.fresh origin destination mint).1).accept tx.view = .error e) :
    Node.connect origin destination { tx, mint } =
      .error e { tx, mint := (Vector.fresh origin destination mint).2 } := by
  have hinsert := Access.insert_apply (.vector (Vector.fresh origin destination mint).1) tx
  rw [hrefused, Access.recordIf_apply] at hinsert
  rw [connect, Op.bind_of_ok (Op.minting_apply _ _)]
  exact Op.bind_of_error (Op.access_of_error hinsert)

/-- To connect two nodes fails if the identifier of the new vector is taken. -/
theorem Node.connect_taken {origin destination : NodeId} {tx : Transaction} {mint : Mint}
    (htaken : tx.view.has (.vector (Vector.fresh origin destination mint).1.id)) :
    Node.connect origin destination { tx, mint } =
      .error (.duplicate (.vector (Vector.fresh origin destination mint).1.id))
        { tx, mint := (Vector.fresh origin destination mint).2 } :=
  connect_refused (by rw [Record.accept, Record.key, htaken, if_pos rfl])

/-- To connect two nodes fails if the second node, `destination`, is not there. -/
theorem Node.connect_missing {origin destination : NodeId} {tx : Transaction} {mint : Mint}
    (horigin : tx.view.has (.node origin)) (hdestination : tx.view.has (.node destination) = false)
    (hnew : tx.view.has (.vector (Vector.fresh origin destination mint).1.id) = false) :
    Node.connect origin destination { tx, mint } = .error (.missing (.node destination))
      { tx, mint := (Vector.fresh origin destination mint).2 } := by
  refine connect_refused ?_
  rw [Record.accept, Record.key, hnew, if_neg Bool.false_ne_true]
  change tx.view.requireAll [.node origin, .node destination] = _
  simp [Tables.requireAll, Tables.firstMissing?, horigin, hdestination]

namespace Network

theorem wire_cons (p : NodeId × NodeId) (ends : List (NodeId × NodeId)) :
    wire (p :: ends) = (do
      let v ← Node.connect p.1 p.2
      let vs ← wire ends
      return v :: vs) := List.mapM_cons

section Single

variable {origin destination : NodeId} {scene scene' : Scene} {v : Vector}

/-- To wire a single pair of ends that can be connected gives the one vector `v`. -/
theorem wire_of_ok (h : Node.connect origin destination scene = .ok v scene') :
    wire [(origin, destination)] scene = .ok [v] scene' := by
  rw [wire_cons, Op.bind_of_ok h]
  rfl

/-- To wire a single pair of ends that cannot be connected fails with the same error `e`. -/
theorem wire_of_error {e : Error} (h : Node.connect origin destination scene = .error e scene') :
    wire [(origin, destination)] scene = .error e scene' := by
  rw [wire_cons, Op.bind_of_error h]

end Single

/-- What the mint has given out once it has wired the pair `p` and then the pairs in `ends`. -/
theorem final_wire_cons {p : NodeId × NodeId} {s s' : Scene} {v : Vector}
    (hfirst : Node.connect p.1 p.2 s = .ok v s') (ends : List (NodeId × NodeId)) :
    final (wire (p :: ends) s) = final (wire ends s') := by
  rw [wire_cons, Op.bind_of_ok hfirst]
  cases hw : wire ends s' with
  | ok vs scene => rw [Op.bind_of_ok hw]; rfl
  | error e scene => rw [Op.bind_of_error hw]

/-- To wire nodes that are there succeeds where no vector has an identifier that `wire ends` draws.
-/
theorem wire_ok {ends : List (NodeId × NodeId)} {tx : Transaction} {mint : Mint}
    (hmode : tx.mode = .readWrite)
    (hends : ∀ p ∈ ends, tx.view.has (.node p.1) ∧ tx.view.has (.node p.2))
    (hunused : tx.view.Unused .vector mint.ids (final (wire ends { tx, mint })).mint.ids) :
    wire ends { tx, mint } = .ok (Vector.freshAll ends mint).1
      { tx := tx.storeAll (Vector.freshAll ends mint).1
        mint := (Vector.freshAll ends mint).2 } := by
  induction ends generalizing tx mint with
  | nil => rfl
  | cons p ends ih =>
    have hrest := Vector.freshAll_cons p ends mint
    have hgiven := Vector.given_fresh p.1 p.2 mint
    have htaken := @Node.connect_taken p.1 p.2 tx mint
    have hfirst := @Node.connect_ok p.1 p.2 tx mint hmode (hends p (.head _)).1
      (hends p (.head _)).2
    generalize hdrawn : Vector.fresh p.1 p.2 mint = drawn at hgiven hrest htaken hfirst
    obtain ⟨v, mint'⟩ := drawn
    cases hnew : tx.view.has (.vector v.id) with
    | true =>
      -- it stopped at the first identifier, and that one is unused
      rw [wire_cons, Op.bind_of_error (htaken hnew)] at hunused
      have hfree := hunused.free (k := .vector v.id) hgiven List.prefix_rfl (.head _)
      exact absurd (hfree.symm.trans hnew) Bool.false_ne_true
    | false =>
      have hdraws := draws_wire ends { tx := tx.store (.vector v), mint := mint' }
      rw [final_wire_cons (hfirst hnew)] at hunused
      have hlater : wire ends { tx := tx.store (.vector v), mint := mint' } = _ :=
        ih hmode ?_ (hunused.put hgiven hdraws)
      · rw [wire_cons, Op.bind_of_ok (hfirst hnew), Op.bind_of_ok hlater, hrest]
        rfl
      · intro q hq
        obtain ⟨ho, hd⟩ := hends q (.tail p hq)
        exact ⟨Tables.has_put_of_has ho _, Tables.has_put_of_has hd _⟩

end Network

/-! ## Operations on copies -/

namespace Holding

variable {ρ α : Type} {h : Holder ρ}

theorem copy_apply (h : Holder ρ) : (Holding.copy : Holding ρ ρ) h = .ok h.copy h := rfl

theorem ofExcept_ok (v : α) (h : Holder ρ) : (ofExcept (.ok v) : Holding ρ α) h = .ok v h := rfl

theorem ofExcept_error (e : Error) (h : Holder ρ) :
    (ofExcept (.error e) : Holding ρ α) h = .error e h := rfl

theorem op_of_ok {a : Op α} {scene : Scene} {v : α} (ha : a h.scene = .ok v scene) :
    (liftM a : Holding ρ α) h = .ok v { h with scene } := by
  change Holding.op a h = _
  rw [op, ha]

theorem op_of_error {a : Op α} {scene : Scene} {e : Error} (ha : a h.scene = .error e scene) :
    (liftM a : Holding ρ α) h = .error e { h with scene } := by
  change Holding.op a h = _
  rw [op, ha]

theorem access_of_ok {a : Access α} {tx : Transaction} {v : α} (ha : a h.scene.tx = .ok v tx) :
    (liftM a : Holding ρ α) h = .ok v { h with scene := { h.scene with tx } } :=
  op_of_ok (Op.access_of_ok ha)

theorem access_of_error {a : Access α} {tx : Transaction} {e : Error}
    (ha : a h.scene.tx = .error e tx) :
    (liftM a : Holding ρ α) h = .error e { h with scene := { h.scene with tx } } :=
  op_of_error (Op.access_of_error ha)

theorem minting_apply (a : Minting α) (h : Holder ρ) : (liftM a : Holding ρ α) h =
    .ok (a h.scene.mint).1 { h with scene := { h.scene with mint := (a h.scene.mint).2 } } := rfl

/-- An operation `a` that leaves the copy alone does to the scene what it does without the copy. -/
theorem scene_final_op (a : Op α) (h : Holder ρ) :
    (final ((liftM a : Holding ρ α) h)).scene = final (a h.scene) := by
  cases ha : a h.scene with
  | ok v scene => rw [op_of_ok ha]; rfl
  | error e scene => rw [op_of_error ha]; rfl

/-- To refresh the copy after `a` does nothing to the transaction. -/
theorem scene_final_refresh (a : Access Unit) (r : ρ) (h : Holder ρ) :
    (final ((do (liftM a : Holding ρ Unit); Holding.refresh r : Holding ρ Unit) h)).scene =
      { h.scene with tx := final (a h.scene.tx) } := by
  cases ha : a h.scene.tx with
  | ok v tx => rw [Op.bind_of_ok (access_of_ok ha)]; rfl
  | error e tx => rw [Op.bind_of_error (access_of_error ha)]; rfl

end Holding

/-! ## Joining -/

/-- The node `stored` may be made a member of a network that is there. -/
theorem Revision.accept_member {t : Tables} {stored : Node} {network : NetworkId}
    (hstored : t.nodes[stored.id]? = some stored) (hnetwork : t.has (.network network)) :
    (Revision.node { stored with network := some network }).accept t = .ok () := by
  have hall : t.requireAll [.network network] = .ok () :=
    Tables.requireAll_ok_iff.2 (by simpa using hnetwork)
  simp [accept, acceptNode, hstored, Record.references, hall]

namespace Network

/-- Make the node `stored` a member of `network`, in the transaction `tx`. -/
def enroll (network : Network) (stored : Node) (tx : Transaction) : Transaction :=
  (tx.noteRead (.node stored.id)).store (.node { stored with network := some network.id })

/-- To make the node `stored` a member brings no record and takes none away. -/
theorem has_enroll {network : Network} {stored : Node} {tx : Transaction}
    (hstored : tx.view.has (.node stored.id)) (k : Key) :
    (network.enroll stored tx).view.has k = tx.view.has k := by
  have hput : (network.enroll stored tx).view.has k =
      (decide (Key.node stored.id = k) || tx.view.has k) := Tables.has_put _ _ k
  rw [hput]
  by_cases hk : Key.node stored.id = k
  · subst hk
    rw [hstored, Bool.or_true]
  · rw [decide_eq_false hk, Bool.false_or]

/-- So `enroll` keeps it that all identifiers in use were given out by `s`. -/
theorem issued_enroll {network : Network} {stored : Node} {tx : Transaction} {s : IdSource}
    {e : Entity} (h : tx.view.IssuedBy s e) (hstored : tx.view.has (.node stored.id)) :
    (network.enroll stored tx).view.IssuedBy s e := fun k hk hhas =>
  h k hk (has_enroll hstored k ▸ hhas)

/-- Nor does `enroll` use an identifier that was `Unused`. -/
theorem unused_enroll {network : Network} {stored : Node} {tx : Transaction} {s s' : IdSource}
    {e : Entity} (h : tx.view.Unused e s s') (hstored : tx.view.has (.node stored.id)) :
    (network.enroll stored tx).view.Unused e s s' :=
  h.anti fun k _ hhas => has_enroll hstored k ▸ hhas

section Adopt

variable {network : Network} {role : NodeRole} {copy stored : Node} {tx : Transaction}
  {mint : Mint}

/-- Once the role is right, `adopt` looks the stored node up and revises it. -/
theorem adopt_of_role {h : Holder Node} (hrole : h.copy.kind.role = role) :
    network.adopt role h = (do
      let stored ← Access.requireNode h.copy.id
      Access.revise (.node { stored with network := some network.id })
      Holding.refresh { stored with network := some network.id } : Holding Node Unit) h := by
  rw [adopt, Op.bind_of_ok (Holding.copy_apply _), if_neg (not_not.2 hrole)]

/-- To adopt the node `stored` into a network that is there succeeds in a transaction that may
write, if `copy` plays the role. -/
theorem adopt_ok (hrole : copy.kind.role = role) (hid : stored.id = copy.id)
    (hstored : tx.view.nodes[copy.id]? = some stored)
    (hnetwork : tx.view.has (.network network.id)) (hmode : tx.mode = .readWrite) :
    network.adopt role { copy, scene := { tx, mint } } =
      .ok () { copy := { stored with network := some network.id }
               scene := { tx := network.enroll stored tx, mint } } := by
  have haccept : (Revision.node { stored with network := some network.id }).accept
      (tx.noteRead (.node stored.id)).view = .ok () :=
    Revision.accept_member (hid.symm ▸ hstored) hnetwork
  have hrevise : Access.revise (.node { stored with network := some network.id })
      (tx.noteRead (.node copy.id)) = .ok () (network.enroll stored tx) :=
    hid ▸ Access.revise_of_accept haccept hmode
  rw [adopt_of_role hrole,
    Op.bind_of_ok (Holding.access_of_ok (Access.requireNode_of_some hstored)),
    Op.bind_of_ok (Holding.access_of_ok hrevise)]
  rfl

/-- To adopt a node fails without a trace, or the node is `stored`, the network is there, and the
node becomes a member. -/
theorem adopt_cases (hkeyed : tx.view.Keyed) :
    (∃ e tx', network.adopt role { copy, scene := { tx, mint } } =
        .error e { copy, scene := { tx := tx', mint } } ∧
      tx'.view = tx.view ∧ tx'.writes = tx.writes ∧ tx'.scans = tx.scans) ∨
    ∃ stored, copy.kind.role = role ∧ stored.id = copy.id ∧
      tx.view.nodes[copy.id]? = some stored ∧ tx.view.has (.network network.id) ∧
      tx.mode = .readWrite := by
  by_cases hrole : copy.kind.role = role
  · rw [adopt_of_role hrole]
    cases hstored : tx.view.nodes[copy.id]? with
    | none =>
      have hmissing := Access.requireNode_of_none hstored
      exact .inl ⟨_, _, Op.bind_of_error (Holding.access_of_error hmissing), rfl, rfl, rfl⟩
    | some stored =>
      have hid : stored.id = copy.id := hkeyed.node_id hstored
      rw [Op.bind_of_ok (Holding.access_of_ok (Access.requireNode_of_some hstored))]
      cases hrevise : Access.revise (.node { stored with network := some network.id })
          (tx.noteRead (.node copy.id)) with
      | error e tx' =>
        cases Access.recordIf_error hrevise
        exact .inl ⟨_, _, Op.bind_of_error (Holding.access_of_error hrevise), rfl, rfl, rfl⟩
      | ok u tx' =>
        obtain ⟨haccept, hmode, -⟩ := Access.recordIf_ok hrevise
        have hlookup : tx.view.nodes[stored.id]? = some stored := hid ▸ hstored
        refine .inr ⟨stored, hrole, hid, rfl, ?_, hmode⟩
        simpa [Revision.accept, Revision.acceptNode, hlookup, Tables.requireAll_ok_iff,
          Record.references] using haccept
  · refine .inl ⟨.wrongRole copy network.id role, tx, ?_, rfl, rfl, rfl⟩
    rw [adopt, Op.bind_of_ok (Holding.copy_apply _), if_pos hrole]
    rfl

end Adopt

section AddAgent

variable {network : Network} {copy stored : Node} {tx : Transaction} {mint : Mint}

/-- The agents that `network` has in the tables `t`. -/
def agentsIn (network : Network) (t : Tables) : List Node :=
  t.selectNodes { network := some network.id, role := some .agent, excluded := [.failed, .dead] }

theorem agents_apply (network : Network) (tx : Transaction) :
    network.agents tx = .ok (network.agentsIn tx.view) (tx.noteScan .node) := rfl

/-- The ends of the vectors that join `agent` to `network` in the tables `t`. -/
def endsIn (network : Network) (t : Tables) (agent : NodeId) : List (NodeId × NodeId) :=
  network.kind.wiring ((network.agentsIn t).map (·.id)) agent

/-- The agents of `network` in `t` are its members of that role that are alive. -/
theorem mem_agentsIn {t : Tables} (hkeyed : t.Keyed) {n : Node} :
    n ∈ network.agentsIn t ↔ t.nodes[n.id]? = some n ∧ n.network = some network.id ∧
      n.kind.role = .agent ∧ n.isAlive := by
  have hrow : n ∈ Tables.rows t.nodes ↔ t.nodes[n.id]? = some n := by
    rw [Tables.mem_rows]
    constructor
    · rintro ⟨i, hi⟩
      rw [hkeyed.node_id hi, hi]
    · intro h
      exact ⟨n.id, h⟩
  rw [agentsIn, Tables.selectNodes, mem_sort, List.mem_filter, hrow]
  cases hstatus : n.status <;>
    simp [NodeQuery.matches, Node.isAlive, hstatus]

/-- No agent is listed twice in `agentsIn`. -/
theorem nodup_agentsIn {t : Tables} (hkeyed : t.Keyed) :
    ((network.agentsIn t).map (·.id)).Nodup := by
  rw [agentsIn, Tables.selectNodes, ((sort_perm _ _).map _).nodup_iff]
  exact (Tables.rows_nodup fun i n hi => hkeyed.node_id hi).sublist (List.filter_sublist.map _)

end AddAgent

end Network

/-- A vector that joins the agent `new` leads between `new` and one of the `earlier` agents. -/
theorem NetworkKind.mem_wiring {kind : NetworkKind} {earlier : List NodeId} {new : NodeId}
    {p : NodeId × NodeId} (hp : p ∈ kind.wiring earlier new) :
    p.1 ∈ earlier ∧ p.2 = new ∨ p.1 = new ∧ p.2 ∈ earlier := by
  cases kind with
  | base => cases hp
  | chain =>
    obtain ⟨previous, hprevious, rfl⟩ := List.mem_map.1 hp
    rw [Option.mem_toList] at hprevious
    exact .inl ⟨List.mem_of_getLast? hprevious, rfl⟩
  | fullyConnected =>
    obtain ⟨other, hother, hp⟩ := List.mem_flatMap.1 hp
    rcases List.mem_pair.1 hp with rfl | rfl
    · exact .inl ⟨hother, rfl⟩
    · exact .inr ⟨rfl, hother⟩
  | star =>
    obtain ⟨hub, hhub, hp⟩ := List.mem_flatMap.1 hp
    rw [Option.mem_toList] at hhub
    have hmem : hub ∈ earlier := List.mem_of_head? hhub
    rcases List.mem_pair.1 hp with rfl | rfl
    · exact .inl ⟨hmem, rfl⟩
    · exact .inr ⟨rfl, hmem⟩

namespace Network

section Join

variable {network : Network} {copy stored : Node} {tx : Transaction} {mint : Mint}

/-- The vectors that join `agent` lead between nodes that are there. -/
theorem has_of_mem_endsIn {t : Tables} (hkeyed : t.Keyed) {agent : NodeId}
    (hagent : t.has (.node agent)) {p : NodeId × NodeId} (hp : p ∈ network.endsIn t agent) :
    t.has (.node p.1) ∧ t.has (.node p.2) := by
  have hearlier : ∀ i ∈ (network.agentsIn t).map (·.id), t.has (.node i) := by
    intro i hi
    obtain ⟨n, hn, rfl⟩ := List.mem_map.1 hi
    simp [Tables.has, Tables.find?, ((mem_agentsIn hkeyed).1 hn).1]
  rcases NetworkKind.mem_wiring hp with ⟨hother, hnew⟩ | ⟨hnew, hother⟩
  · exact ⟨hearlier _ hother, hnew ▸ hagent⟩
  · exact ⟨hnew ▸ hagent, hearlier _ hother⟩

/-- What is left once a node is a member is to wire it, and this succeeds where the nodes of `ends`
are there and the identifiers are unused. -/
theorem joined_ok {a : Holding Node (List Vector)} {h : Holder Node}
    {ends : List (NodeId × NodeId)}
    (hrun : a h = (liftM (wire ends) : Holding Node (List Vector))
      { copy, scene := { tx, mint } })
    (hmode : tx.mode = .readWrite)
    (hends : ∀ p ∈ ends, tx.view.has (.node p.1) ∧ tx.view.has (.node p.2))
    (hunused : tx.view.Unused .vector mint.ids (final (a h)).scene.mint.ids) :
    a h = .ok (Vector.freshAll ends mint).1
      { copy
        scene := { tx := tx.storeAll (Vector.freshAll ends mint).1
                   mint := (Vector.freshAll ends mint).2 } } := by
  rw [hrun, Holding.scene_final_op] at hunused
  rw [hrun]
  exact Holding.op_of_ok (wire_ok hmode hends hunused)

/-- The node `stored`, whose copy is a source, is added to a network that is there, in a transaction
that may write and where no vector has an identifier that is drawn: it becomes a member, and gets
vectors to all agents that the network has then. -/
theorem addSourceToAll_ok (hrole : copy.kind.role = .source) (hid : stored.id = copy.id)
    (hstored : tx.view.nodes[copy.id]? = some stored)
    (hnetwork : tx.view.has (.network network.id)) (hmode : tx.mode = .readWrite)
    (hkeyed : tx.view.Keyed)
    (hunused : tx.view.Unused .vector mint.ids
      (final (network.addSourceToAll { copy, scene := { tx, mint } })).scene.mint.ids) :
    let made := Vector.freshAll
      ((network.agentsIn (network.enroll stored tx).view).map fun a => (copy.id, a.id)) mint
    network.addSourceToAll { copy, scene := { tx, mint } } =
      .ok made.1 { copy := { stored with network := some network.id }
                   scene := { tx := ((network.enroll stored tx).noteScan .node).storeAll made.1
                              mint := made.2 } } := by
  intro made
  have hkeyed' : (network.enroll stored tx).view.Keyed := hkeyed.put _
  have hends : ∀ p ∈ (network.agentsIn (network.enroll stored tx).view).map fun a =>
      (copy.id, a.id), (network.enroll stored tx).view.has (.node p.1) ∧
        (network.enroll stored tx).view.has (.node p.2) := by
    refine List.forall_mem_map.2 fun a ha => ⟨?_, ?_⟩
    · exact Tables.has_put_of_has (Tables.has_node_iff.2 ⟨stored, hstored⟩) _
    · exact Tables.has_node_iff.2 ⟨a, ((mem_agentsIn hkeyed').1 ha).1⟩
  have hunused' : (network.enroll stored tx).view.Unused .vector mint.ids _ :=
    hunused.put_of_ne nofun
  refine joined_ok ?_ hmode hends hunused'
  rw [addSourceToAll, Op.bind_of_ok (adopt_ok hrole hid hstored hnetwork hmode),
    Op.bind_of_ok (Holding.access_of_ok (agents_apply _ _)),
    Op.bind_of_ok (Holding.copy_apply _), ← hid]

section Adopted

variable (hrole : copy.kind.role = .agent) (hid : stored.id = copy.id)
  (hstored : tx.view.nodes[copy.id]? = some stored)
  (hnetwork : tx.view.has (.network network.id)) (hmode : tx.mode = .readWrite)
include hrole hid hstored hnetwork hmode

/-- Once the agent `stored` is a member of a network that is there, in a transaction that may write,
what is left of `addAgent` is to wire it. -/
theorem addAgent_apply :
    network.addAgent { copy, scene := { tx, mint } } =
      (liftM (wire (network.endsIn tx.view copy.id)) : Holding Node (List Vector))
        { copy := { stored with network := some network.id }
          scene := { tx := network.enroll stored (tx.noteScan .node), mint } } := by
  have hadopt : network.adopt .agent { copy, scene := { tx := tx.noteScan .node, mint } } = _ :=
    adopt_ok hrole hid hstored hnetwork hmode
  rw [addAgent, Op.bind_of_ok (Holding.access_of_ok (agents_apply network tx)),
    Op.bind_of_ok hadopt, Op.bind_of_ok (Holding.copy_apply _), ← hid]
  rfl

/-- Where no vector has an identifier that is drawn, `addAgent` gives the agent `stored` all its
vectors. -/
theorem addAgent_ok (hkeyed : tx.view.Keyed)
    (hunused : tx.view.Unused .vector mint.ids
      (final (network.addAgent { copy, scene := { tx, mint } })).scene.mint.ids) :
    let made := Vector.freshAll (network.endsIn tx.view copy.id) mint
    network.addAgent { copy, scene := { tx, mint } } =
      .ok made.1 { copy := { stored with network := some network.id }
                   scene := { tx := (network.enroll stored (tx.noteScan .node)).storeAll made.1
                              mint := made.2 } } := by
  intro made
  have hends : ∀ p ∈ network.endsIn tx.view copy.id,
      (network.enroll stored (tx.noteScan .node)).view.has (.node p.1) ∧
        (network.enroll stored (tx.noteScan .node)).view.has (.node p.2) := by
    intro p hp
    obtain ⟨horigin, hdestination⟩ :=
      has_of_mem_endsIn hkeyed (Tables.has_node_iff.2 ⟨stored, hstored⟩) hp
    exact ⟨Tables.has_put_of_has horigin _, Tables.has_put_of_has hdestination _⟩
  exact joined_ok (addAgent_apply hrole hid hstored hnetwork hmode) hmode hends
    (hunused.put_of_ne nofun)

end Adopted

/-- To join fails without a trace, or the agent is `stored`, the network is there, and the
transaction may write. -/
theorem addAgent_adopts (hkeyed : tx.view.Keyed) :
    (∃ e tx', network.addAgent { copy, scene := { tx, mint } } =
        .error e { copy, scene := { tx := tx', mint } } ∧
      tx'.view = tx.view ∧ tx'.writes = tx.writes ∧ tx'.scans = (tx.noteScan .node).scans) ∨
    ∃ stored, copy.kind.role = .agent ∧ stored.id = copy.id ∧
      tx.view.nodes[copy.id]? = some stored ∧ tx.view.has (.network network.id) ∧
      tx.mode = .readWrite := by
  have hkeyed' : (tx.noteScan .node).view.Keyed := hkeyed
  refine (@adopt_cases network .agent copy (tx.noteScan .node) mint hkeyed').imp_left ?_
  rintro ⟨e, tx', hadopt, hsame⟩
  refine ⟨e, tx', ?_, hsame⟩
  rw [addAgent, Op.bind_of_ok (Holding.access_of_ok (agents_apply network tx))]
  exact Op.bind_of_error hadopt

/-- Where no vector has an identifier that is drawn, `addAgent` fails without a trace or gives the
node all its vectors. -/
theorem addAgent_cases (hkeyed : tx.view.Keyed)
    (hunused : tx.view.Unused .vector mint.ids
      (final (network.addAgent { copy, scene := { tx, mint } })).scene.mint.ids) :
    (∃ e tx', network.addAgent { copy, scene := { tx, mint } } =
        .error e { copy, scene := { tx := tx', mint } } ∧
      tx'.view = tx.view ∧ tx'.writes = tx.writes ∧ tx'.scans = (tx.noteScan .node).scans) ∨
    ∃ stored, copy.kind.role = .agent ∧ stored.id = copy.id ∧
      tx.view.nodes[copy.id]? = some stored ∧ tx.mode = .readWrite ∧
      let made := Vector.freshAll (network.endsIn tx.view copy.id) mint
      network.addAgent { copy, scene := { tx, mint } } =
        .ok made.1 { copy := { stored with network := some network.id }
                     scene := { tx := (network.enroll stored (tx.noteScan .node)).storeAll made.1
                                mint := made.2 } } := by
  refine (addAgent_adopts hkeyed).imp_right ?_
  rintro ⟨stored, hrole, hid, hstored, hnetwork, hmode⟩
  exact ⟨stored, hrole, hid, hstored, hmode,
    addAgent_ok hrole hid hstored hnetwork hmode hkeyed hunused⟩

end Join

end Network

end Propagation
