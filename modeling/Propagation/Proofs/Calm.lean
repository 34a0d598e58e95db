import Propagation.Proofs.Mesh

/-!
# Leaving membership alone

What a transaction does to nodes and vectors falls into two parts. Either it leaves vectors and
membership alone: nodes come that are in no network, and nodes end. Or an agent joins a network and
gets its vectors. Which of the two an operation does, and which nodes are new, is said here for each
operation; what follows from it for several transactions at a time need not look into them again.

## Main definitions

* `Transaction.Calmly`: a transaction goes on and leaves vectors and membership alone.
* `Transaction.Joins`: in a transaction, an agent joins a network.
* `Request.Aside`: a request that stores neither a node nor a vector.

## Main statements

* `Node.finish_cases`: what it is to end a node.
* `Node.calmly_create`, `Node.calmly_finish` and siblings: operations that leave membership alone.
* `Network.joins_addAgent`: where identifiers are fresh, to join fails without a trace, or the agent
  joins.
-/

namespace Propagation

/-- Nodes and vectors in `t` have identifiers that `s` has given out. -/
def Tables.Issued (s : IdSource) (t : Tables) : Prop :=
  t.IssuedBy s .node ∧ t.IssuedBy s .vector

theorem Tables.Issued.mono {s s' : IdSource} {t : Tables} (h : t.Issued s)
    (hs : s.given <+: s'.given) : t.Issued s' :=
  ⟨h.1.mono hs, h.2.mono hs⟩

/-! ## Transactions -/

namespace Transaction

/-- From `tx` to `tx'`, vectors and membership are left alone. Nodes for which `new` holds may be
stored, and others if the transaction is serializable. -/
structure Calmly (new : NodeId → Prop) (tx tx' : Transaction) : Prop where
  view : tx.view.Calm tx'.view
  vectors : ∀ i, .vector i ∈ tx'.writes → .vector i ∈ tx.writes
  nodes : ∀ i, .node i ∈ tx'.writes → .node i ∈ tx.writes ∨ new i ∨ tx.isolation = .serializable
  comes : ∀ i, tx'.view.has (.node i) → tx.view.has (.node i) ∨ new i

/-- Node `n` may be stored in `tx` without that vectors or membership change. -/
structure Settles (new : NodeId → Prop) (tx : Transaction) (n : Node) : Prop where
  old : ∀ old, tx.view.nodes[n.id]? = some old → old.Stays n ∧
    (.node n.id ∈ tx.writes ∨ tx.isolation = .serializable)
  fresh : tx.view.nodes[n.id]? = none → n.network = none ∧ new n.id

namespace Calmly

variable {new : NodeId → Prop} {tx tx' tx'' : Transaction}

theorem of_eq (hview : tx'.view = tx.view) (hwrites : ∀ k ∈ tx'.writes, k ∈ tx.writes) :
    tx.Calmly new tx' where
  view := hview ▸ .refl _
  vectors _ hi := hwrites _ hi
  nodes _ hi := .inl (hwrites _ hi)
  comes _ hi := .inl (hview ▸ hi)

theorem refl (tx : Transaction) : tx.Calmly new tx := of_eq rfl fun _ h => h

/-- If what is new by `new'` is so by `new`, one calm stretch may follow another. -/
theorem trans {new' : NodeId → Prop} (h : tx.Calmly new tx') (h' : tx'.Calmly new' tx'')
    (hnew : ∀ i, new' i → new i) (hisolation : tx'.isolation = tx.isolation) :
    tx.Calmly new tx'' where
  view := h.view.trans h'.view
  vectors i hi := h.vectors i (h'.vectors i hi)
  nodes i hi := by
    rcases h'.nodes i hi with hi | hi | hser
    · exact h.nodes i hi
    · exact .inr (.inl (hnew i hi))
    · exact .inr (.inr (hisolation ▸ hser))
  comes i hi := by
    rcases h'.comes i hi with hi | hi
    · exact h.comes i hi
    · exact .inr (hnew i hi)

theorem store_node {n : Node} (h : tx.Settles new n) : tx.Calmly new (tx.store (.node n)) where
  view := .put_node (fun old hold => (h.old old hold).1) fun hnone => (h.fresh hnone).1
  vectors i hi := by
    rcases mem_writes_store.1 hi with hi | hi
    · cases hi
    · exact hi
  nodes i hi := by
    rcases mem_writes_store.1 hi with hi | hi
    · cases hi
      cases hold : tx.view.nodes[n.id]? with
      | none => exact .inr (.inl (h.fresh hold).2)
      | some old => exact (h.old old hold).2.imp_right .inr
    · exact .inl hi
  comes i hi := by
    rw [view_store, Tables.has_put, Bool.or_eq_true, decide_eq_true_eq] at hi
    rcases hi with hi | hi
    · cases hi
      cases hold : tx.view.nodes[n.id]? with
      | none => exact .inr (h.fresh hold).2
      | some old => exact .inl (Tables.has_node_iff.2 ⟨old, hold⟩)
    · exact .inl hi

theorem put_other {r : Record} (hnode : r.key.entity ≠ .node) (hvector : r.key.entity ≠ .vector)
    (hview : tx'.view = tx.view.put r) (hwrites : ∀ k ∈ tx'.writes, k ∈ tx.writes ∨ r.key = k) :
    tx.Calmly new tx' where
  view := hview ▸ .put_other hnode hvector
  vectors i hi := by
    rcases hwrites _ hi with hi | hi
    · exact hi
    · rw [hi] at hvector
      exact absurd rfl hvector
  nodes i hi := by
    rcases hwrites _ hi with hi | hi
    · exact .inl hi
    · rw [hi] at hnode
      exact absurd rfl hnode
  comes i hi := by
    rw [hview, Tables.has_put, Bool.or_eq_true, decide_eq_true_eq] at hi
    rcases hi with hi | hi
    · rw [hi] at hnode
      exact absurd rfl hnode
    · exact .inl hi

/-- If a record leaves vectors and membership alone once it was accepted, then `recordIf` does,
whether it was accepted or not. -/
theorem recordIf {accepted : Except Error Unit} {r : Record}
    (h : accepted = .ok () → tx.Calmly new (tx.store r)) :
    tx.Calmly new (final (Access.recordIf accepted r tx)) := by
  cases hrecord : Access.recordIf accepted r tx with
  | ok u tx' =>
    obtain ⟨haccepted, -, rfl⟩ := Access.recordIf_ok hrecord
    exact h haccepted
  | error e tx' =>
    cases Access.recordIf_error hrecord
    exact refl tx

end Calmly

end Transaction

/-- The request stores neither a node nor a vector. -/
def Request.Aside (r : Request) : Prop :=
  ∀ s, r.stored? = some s → s.key.entity ≠ .node ∧ s.key.entity ≠ .vector

section Calmly

variable {new : NodeId → Prop} {tx tx' : Transaction}

theorem Request.Aside.calmly_after {r : Request} (h : r.Aside) : tx.Calmly new (r.after tx) := by
  cases hw : r.writes tx with
  | none =>
    refine .of_eq (by rw [r.view_after, hw]) fun k hk => ?_
    rw [r.mem_writes_after, hw] at hk
    exact hk.resolve_right nofun
  | some s =>
    obtain ⟨hnode, hvector⟩ := h s (writes_eq_some.1 hw).1
    refine .put_other hnode hvector (by rw [r.view_after, hw]) fun k hk => ?_
    rw [r.mem_writes_after, hw, Option.map_some, Option.some.injEq] at hk
    exact hk

theorem Transaction.Becomes.calmly (h : tx.Becomes Request.Aside tx') : tx.Calmly new tx' := by
  have hboth : tx.Calmly new tx' ∧ tx'.isolation = tx.isolation := by
    apply h.keeps (I := fun t => tx.Calmly new t ∧ t.isolation = tx.isolation)
    · rintro r t hr ⟨hcalm, hisolation⟩
      refine ⟨hcalm.trans hr.calmly_after (fun _ hi => hi) hisolation, ?_⟩
      rw [r.isolation_after, hisolation]
    · exact ⟨.refl tx, rfl⟩
  exact hboth.1

/-! ## Operations -/

namespace Node

theorem Le.alive {old new : Node} (h : old.Le new) (hnew : new.isAlive) : old.isAlive := by
  cases hold : old.isAlive with
  | true => rfl
  | false => rw [isAlive, (h hold).1, ← isAlive, hold] at hnew; exact hnew

/-- To `insert` a node that is in no network changes no membership. -/
theorem calmly_insert {n : Node} (hfree : n.network = none) (hnew : new n.id) :
    tx.Calmly new (final (insert n tx)) := by
  have hfinal : final (insert n tx) = final (Access.insert (.node n) tx) := by
    cases hinsert : Access.insert (.node n) tx with
    | ok u tx' => rw [insert, Op.bind_of_ok hinsert]; rfl
    | error e tx' => rw [insert, Op.bind_of_error hinsert]; rfl
  rw [hfinal, Access.insert_apply]
  refine .recordIf fun haccept => .store_node ⟨fun old hold => ?_, fun _ => ⟨hfree, hnew⟩⟩
  have hnone := Record.find?_of_accept haccept
  rw [Record.key, Tables.find?_node.2 hold] at hnone
  cases hnone

theorem calmly_create {kind : NodeKind} {mint : Mint} (hnew : new (fresh kind mint).1.id) :
    tx.Calmly new (final (create kind { tx, mint })).tx := by
  rw [create, Op.bind_of_ok (Op.minting_apply _ _), Op.final_access]
  exact calmly_insert rfl hnew

/-- To replace a node by a version of the same membership changes no membership. -/
theorem calmly_revise {n : Node} (hsame : ∀ old, tx.view.nodes[n.id]? = some old →
      n.network = old.network ∧ n.kind.role = old.kind.role)
    (hown : .node n.id ∈ tx.writes ∨ tx.isolation = .serializable) :
    tx.Calmly new (final (Access.revise (.node n) tx)) := by
  rw [Access.revise_apply]
  refine .recordIf fun haccept => .store_node ⟨fun old hold => ?_, fun hnone => ?_⟩
  · have hle : old.Le n := Revision.le_of_accept haccept (.node old)
      (Tables.find?_node.2 hold)
    exact ⟨⟨(hsame old hold).1, (hsame old hold).2, hle.alive⟩, hown⟩
  · obtain ⟨old, hold⟩ := Revision.find?_of_accept haccept
    rw [Revision.record, Record.key, Tables.find?, hnone] at hold
    cases hold

theorem same_of_ended {target : NodeStatus} {now : Timestamp} {n n' : Node}
    (h : n.ended target now = .ok (some n')) :
    n'.id = n.id ∧ n'.network = n.network ∧ n'.kind = n.kind := by
  rw [ended] at h
  split at h
  · cases h
  · split at h
    · cases h
      exact ⟨rfl, rfl, rfl⟩
    · split at h <;> cases h

/-- To `finish` a node is to store a later version of it, or nothing. -/
theorem finish_cases {target : NodeStatus} {copy : Node} {mint : Mint} (hkeyed : tx.view.Keyed)
    (hafter : tx' = (final (finish target { copy, scene := { tx, mint } })).scene.tx) :
    tx' = tx.noteRead (.node copy.id) ∨ ∃ stored n, tx.view.nodes[n.id]? = some stored ∧
      stored.Stays n ∧ tx' = (tx.noteRead (.node copy.id)).store (.node n) := by
  rw [finish, Op.bind_of_ok (Holding.copy_apply _)] at hafter
  cases hstored : tx.view.nodes[copy.id]? with
  | none =>
    rw [Op.bind_of_error (Holding.access_of_error (Access.requireNode_of_none hstored))] at hafter
    exact .inl hafter
  | some stored =>
    have hcopy : stored.id = copy.id := hkeyed.node_id hstored
    rw [Op.bind_of_ok (Holding.access_of_ok (Access.requireNode_of_some hstored)),
      Op.bind_of_ok (Holding.minting_apply _ _)] at hafter
    generalize (Minting.now mint).1 = now at hafter
    cases hended : stored.ended target now with
    | error e =>
      rw [hended] at hafter
      exact .inl hafter
    | ok moved =>
      rw [hended] at hafter
      cases moved with
      | none => exact .inl hafter
      | some n =>
        obtain ⟨hid, hnetwork, hkind⟩ := same_of_ended hended
        replace hafter : tx' = final (Access.revise (.node n) (tx.noteRead (.node copy.id))) :=
          hafter.trans (congrArg Scene.tx (Holding.scene_final_refresh _ n _))
        have hlookup : tx.view.nodes[n.id]? = some stored := by rw [hid, hcopy, hstored]
        cases hrevise : Access.revise (.node n) (tx.noteRead (.node copy.id)) with
        | error e tx'' =>
          cases Access.recordIf_error hrevise
          rw [hrevise] at hafter
          exact .inl hafter
        | ok u tx'' =>
          obtain ⟨haccept, -, rfl⟩ := Access.recordIf_ok hrevise
          have hle : stored.Le n :=
            Revision.le_of_accept haccept (.node stored) (Tables.find?_node.2 hlookup)
          rw [hrevise] at hafter
          exact .inr ⟨stored, n, hlookup, ⟨hnetwork, congrArg NodeKind.role hkind, hle.alive⟩,
            hafter⟩

/-- To `finish` a node changes no membership. -/
theorem calmly_finish {target : NodeStatus} {copy : Node} {mint : Mint} (hkeyed : tx.view.Keyed)
    (hser : tx.isolation = .serializable) :
    tx.Calmly new (final (finish target { copy, scene := { tx, mint } })).scene.tx := by
  have hread : tx.Calmly new (tx.noteRead (.node copy.id)) := .of_eq rfl fun _ h => h
  rcases finish_cases hkeyed rfl with hafter | ⟨stored, n, hn, hstays, hafter⟩
  · exact hafter ▸ hread
  · rw [hafter]
    refine hread.trans (.store_node ⟨fun old hold => ?_, fun hnone => ?_⟩) (fun _ hi => hi) rfl
    · cases hn.symm.trans hold
      exact ⟨hstays, .inr hser⟩
    · cases hn.symm.trans hnone

end Node

end Calmly

/-! ## Joining -/

namespace Vector

variable {ends : List (NodeId × NodeId)} {m : Mint}

variable {t : Tables} (hunused : t.Unused .vector m.ids (freshAll ends m).2.ids)
include hunused

/-- Where no vector has an identifier that `freshAll` draws, these identifiers are different. -/
theorem nodup_freshAll : ((freshAll ends m).1.map (·.id)).Nodup := by
  refine .of_map Id.number ?_
  rw [List.map_map]
  exact hunused.nodup (given_freshAll ends m) List.prefix_rfl

/-- And they are free. -/
theorem free_of_mem_freshAll {v : Vector} (hv : v ∈ (freshAll ends m).1) :
    t.has (.vector v.id) = false :=
  hunused.free (k := .vector v.id) (given_freshAll ends m) List.prefix_rfl
    (List.mem_map_of_mem hv)

end Vector

/-- From `tx` to `tx'`, the node `agent` joined `network` and got the vectors in `made`. -/
structure Transaction.Joins (network : Network) (agent : Node) (made : List Vector)
    (tx tx' : Transaction) : Prop where
  view : tx.view.Joins network agent made tx'.view
  scans : .node ∈ tx'.scans
  writes : .node agent.id ∈ tx'.writes

section Join

variable {new : NodeId → Prop} {network : Network} {copy stored : Node} {tx : Transaction}
  {mint : Mint}

/-- What `tx` becomes when the node `stored` is made a member and gets vectors of `Vector.freshAll`.
-/
theorem Transaction.joins_storeAll (hstored : tx.view.nodes[stored.id]? = some stored)
    (hunused : tx.view.Unused .vector mint.ids
      (Vector.freshAll (network.endsIn tx.view stored.id) mint).2.ids) :
    let made := (Vector.freshAll (network.endsIn tx.view stored.id) mint).1
    tx.Joins network stored made
      ((network.enroll stored (tx.noteScan .node)).storeAll made) where
  view :=
    { stored := hstored
      nodes := fun i => by
        rw [nodes_storeAll, Network.enroll, view_store, Tables.nodes_put_node]
        rfl
      vectors := fun i v => by
        rw [view_storeAll]
        exact Tables.vectors_putAll (t := (network.enroll stored (tx.noteScan .node)).view)
          (Vector.nodup_freshAll hunused) (fun v => Vector.free_of_mem_freshAll hunused) i v
      ends := Vector.ends_freshAll _ _ }
  scans := by
    rw [scans_storeAll]
    exact mem_scans_noteScan.2 (.inl rfl)
  writes := mem_writes_storeAll.2 (.inr (mem_writes_store.2 (.inl rfl)))

/-- Where identifiers are fresh, `addAgent` fails without a trace or the stored node joins. -/
theorem Network.joins_addAgent (hkeyed : tx.view.Keyed)
    (hissued : tx.view.IssuedBy mint.ids .vector)
    (hfresh :
      (final (network.addAgent { copy, scene := { tx, mint } })).scene.mint.ids.given.Nodup) :
    let after := (final (network.addAgent { copy, scene := { tx, mint } })).scene
    tx.Calmly new after.tx ∨ ∃ stored made, copy.kind.role = .agent ∧
      tx.view.nodes[copy.id]? = some stored ∧ tx.Joins network stored made after.tx ∧
      after.tx.view.IssuedBy after.mint.ids .vector := by
  have hunused := hissued.unused (network.draws_addAgent { copy, scene := { tx, mint } }) hfresh
  rcases addAgent_cases hkeyed hunused with
    ⟨e, tx', hadd, hview, hwrites, -⟩ | ⟨stored, hrole, hid, hstored, -, hadd⟩
  · rw [hadd]
    exact .inl (.of_eq hview fun k hk => hwrites ▸ hk)
  · rw [hadd] at hunused ⊢
    rw [← hid] at hunused ⊢
    have hhas : (tx.noteScan .node).view.has (.node stored.id) :=
      Tables.has_node_iff.2 ⟨stored, hid.symm ▸ hstored⟩
    have hissued' : (tx.noteScan .node).view.IssuedBy mint.ids .vector := hissued
    exact .inr ⟨stored, _, hrole, hid.symm ▸ hstored,
      Transaction.joins_storeAll (hid.symm ▸ hstored) hunused,
      Transaction.issued_storeAll (issued_enroll hissued' hhas) _⟩

end Join

end Propagation
