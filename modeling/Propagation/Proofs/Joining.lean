import Propagation.Proofs.Calm

/-!
# Agents that join at the same time

An agent that joins a fully connected network is joined with the agents that its transaction sees.
Two agents that join at the same time do not see each other. But to join is to search the nodes, and
to change one of them: of two serializable transactions in which agents join, only the one that ends
first can be committed. The other one has to be made again, and then sees the agent.

A transaction that only lets nodes come or end need not have searched anything, and can be committed
whatever was done meanwhile. It takes its nodes as it saw them, but if anybody had changed these, as
a member or otherwise, the commit would have met a conflict.

## Main definitions

* `World.Meshing`: all that is seen is fully connected, and what was not seen can not be committed.
* `World.Fits`: what may be done in a session.
* `World.Joining`: the runs in which agents are created, join a fully connected network, and end.

## Main statements

* `World.Meshing.use`, `World.Meshing.commit`: what a step keeps.
* `World.Joining.meshing`: what a run keeps.
* `World.Joining.fullyConnected`: in what is committed, all agents of a network that are alive are
  joined, each with each other, by one vector for each direction.
-/

namespace Propagation

/-! ## Sessions -/

/-- What is not in the view of `s` was not in its snapshot. -/
theorem Session.Sound.has_start_of_has {α : Type} {log : List Transaction} {s : Session α}
    (h : s.Sound log) {k : Key} (hk : s.tx.view.has k = false) : s.start.view.has k = false := by
  cases hstart : s.start.view.has k with
  | false => rfl
  | true =>
    obtain ⟨r, hr⟩ := Option.isSome_iff_exists.1 hstart
    obtain ⟨r', hr', -⟩ := h.becomes.le_view k r hr
    rw [Tables.has, hr'] at hk
    cases hk

/-- If `tx` wrote a vector, it also wrote a node. -/
def Transaction.Tied (tx : Transaction) : Prop :=
  ∀ i, .vector i ∈ tx.writes → ∃ j, .node j ∈ tx.writes

/-- What the session `s` sees is fully connected; and if anybody joined in it, then it searched the
nodes, and can not be committed if they have changed. -/
structure Session.Meshing {α : Type} (s : Session α) : Prop where
  view : s.tx.view.Meshed
  tied : s.tx.Tied
  course : s.tx.isolation = .serializable ∧ .node ∈ s.tx.scans ∨
    s.start.Calmly (fun i => s.start.view.has (.node i) = false) s.tx

namespace Session.Meshing

variable {α : Type} {s : Session α} {tx : Transaction} {note : α}

/-- A session goes on `Meshing` while vectors and membership are left alone. -/
theorem calmly {new : NodeId → Prop} (h : s.Meshing) (hbecomes : s.tx.Becomes AnyRequest tx)
    (hstart : s.start.Becomes AnyRequest s.tx) (hcalm : s.tx.Calmly new tx)
    (hnew : ∀ i, new i → s.start.view.has (.node i) = false) :
    ({ s with tx, note } : Session α).Meshing where
  view := h.view.calm hcalm.view
  tied i hi := by
    obtain ⟨j, hj⟩ := h.tied i (hcalm.vectors i hi)
    exact ⟨j, hbecomes.mem_writes hj⟩
  course := by
    rcases h.course with ⟨hser, hscan⟩ | hcourse
    · exact .inl ⟨hbecomes.isolation_eq.trans hser, hbecomes.mem_scans hscan⟩
    · exact .inr (hcourse.trans hcalm hnew hstart.isolation_eq)

/-- A session goes on `Meshing` when an agent joins a fully connected network. -/
theorem join {network : Network} {agent : Node} {made : List Vector} (h : s.Meshing)
    (hkeyed : s.tx.view.Keyed) (hser : tx.isolation = .serializable)
    (hjoins : s.tx.Joins network agent made tx) (hkind : network.kind = .fullyConnected)
    (hrole : agent.kind.role = .agent) (hfree : agent.network = none) :
    ({ s with tx, note } : Session α).Meshing where
  view := hjoins.view.meshed hkind hkeyed h.view hrole hfree
  tied _ _ := ⟨agent.id, hjoins.writes⟩
  course := .inl ⟨hser, hjoins.scans⟩

end Session.Meshing

/-! ## Worlds -/

namespace World

variable {α β : Type} {w : World α}

/-- Nobody has heard of the node `i`: it is not committed, and in no view. -/
structure Unheard (w : World α) (i : NodeId) : Prop where
  committed : w.store.committed.tables.has (.node i) = false
  view : ∀ name s, w.sessions name = some s → s.tx.view.has (.node i) = false

/-- The node `i`, which the session `name` made, is nowhere else. -/
structure Own (w : World α) (name : Nat) (i : NodeId) : Prop where
  committed : w.store.committed.tables.has (.node i) = false
  view : ∀ other s, other ≠ name → w.sessions other = some s → s.tx.view.has (.node i) = false

/-- All that is seen in the world `w` is fully connected, and what is not connected yet can not be
committed. -/
structure Meshing (w : World α) : Prop where
  committed : w.store.committed.tables.Meshed
  sessions : ∀ name s, w.sessions name = some s → s.Meshing
  tied : ∀ s ∈ w.log, s.tx.Tied
  issued : w.store.committed.tables.Issued w.store.mint.ids
  issued_view : ∀ name s, w.sessions name = some s → s.tx.view.Issued w.store.mint.ids
  own : ∀ name s, w.sessions name = some s → ∀ i, s.tx.view.has (.node i) →
    s.start.view.has (.node i) = false → w.Own name i

/-! ### What a step keeps -/

theorem meshing_init (mint : Mint) : (init mint : World α).Meshing where
  committed := Tables.meshed_empty
  sessions _ _ h := by cases h
  tied _ h := by cases h
  issued := ⟨fun k _ hk => by cases k <;> simp [init, Tables.has, Tables.find?] at hk,
    fun k _ hk => by cases k <;> simp [init, Tables.has, Tables.find?] at hk⟩
  issued_view _ _ h := by cases h
  own _ _ h := by cases h

theorem Meshing.begin (h : w.Meshing) (name : Nat) (mode : TxMode) (isolation : Isolation)
    (note : α) : (w.begin name mode isolation note).Meshing where
  committed := h.committed
  sessions i t ht := by
    rcases sessions_begin ht with rfl | ht
    · exact ⟨h.committed, nofun, .inr (.refl _)⟩
    · exact h.sessions i t ht
  tied := h.tied
  issued := h.issued
  issued_view i t ht := by
    rcases sessions_begin ht with rfl | ht
    · exact h.issued
    · exact h.issued_view i t ht
  own i t ht j hj hnew := by
    rcases sessions_begin ht with rfl | ht
    · rw [show (w.opening mode isolation note).start.view.has (.node j) = true from hj] at hnew
      cases hnew
    · obtain ⟨hcommitted, hview⟩ := h.own i t ht j hj hnew
      refine ⟨hcommitted, fun other s hne hs => ?_⟩
      rcases sessions_begin hs with rfl | hs
      · exact hcommitted
      · exact hview other s hne hs

theorem Meshing.rollback (h : w.Meshing) (name : Nat) : (w.rollback name).Meshing where
  committed := h.committed
  sessions i t ht := h.sessions i t (sessions_rollback ht)
  tied := h.tied
  issued := h.issued
  issued_view i t ht := h.issued_view i t (sessions_rollback ht)
  own i t ht j hj hnew := by
    obtain ⟨hcommitted, hview⟩ := h.own i t (sessions_rollback ht) j hj hnew
    exact ⟨hcommitted, fun other s hne hs => hview other s hne (sessions_rollback hs)⟩

theorem Meshing.aside (h : w.Meshing) {f : Store → Store}
    (hf : (f w.store).committed = w.store.committed)
    (hgiven : w.store.mint.ids.given <+: (f w.store).mint.ids.given) : (w.aside f).Meshing where
  committed := by
    change (f w.store).committed.tables.Meshed
    rw [hf]
    exact h.committed
  sessions := h.sessions
  tied := h.tied
  issued := by
    change (f w.store).committed.tables.Issued _
    rw [hf]
    exact h.issued.mono hgiven
  issued_view i t ht := (h.issued_view i t ht).mono hgiven
  own i t ht j hj hnew := by
    obtain ⟨hcommitted, hview⟩ := h.own i t ht j hj hnew
    refine ⟨?_, hview⟩
    change (f w.store).committed.tables.has _ = false
    rw [hf]
    exact hcommitted

section Use

variable {name : Nat} {s : Session α} {op : Op β} {remark : Except Error β → α → α}

/-- What may be done in a session with the transaction `tx`: to leave vectors and membership alone,
where new nodes are ones that nobody has heard of, or to have an agent join a fully connected
network. -/
def Fits (w : World α) (tx : Transaction) (after : Scene) : Prop :=
  tx.Calmly (fun i => i.number ∈ after.mint.ids.given ∧ w.Unheard i) after.tx ∨
  tx.isolation = .serializable ∧ ∃ network agent made, network.kind = .fullyConnected ∧
    agent.kind.role = .agent ∧ agent.network = none ∧ tx.Joins network agent made after.tx ∧
    after.tx.view.IssuedBy after.mint.ids .vector

/-- A node `i` of a view after a step was there, or nobody had heard of it. -/
theorem Fits.comes {tx : Transaction} {after : Scene} (h : w.Fits tx after) {i : NodeId}
    (hi : after.tx.view.has (.node i)) : tx.view.has (.node i) ∨
      i.number ∈ after.mint.ids.given ∧ w.Unheard i := by
  rcases h with hcalm | ⟨-, network, agent, made, -, -, -, hjoins, -⟩
  · exact hcalm.comes i hi
  · obtain ⟨n, hn⟩ := Tables.has_node_iff.1 hi
    rw [hjoins.view.nodes] at hn
    split at hn
    · rename_i hagent
      exact .inl (Tables.has_node_iff.2 ⟨agent, hagent ▸ hjoins.view.stored⟩)
    · exact .inl (Tables.has_node_iff.2 ⟨n, hn⟩)

theorem Fits.issued {tx : Transaction} {after : Scene} (h : w.Fits tx after)
    (hissued : tx.view.Issued w.store.mint.ids)
    (hgiven : w.store.mint.ids.given <+: after.mint.ids.given) :
    after.tx.view.Issued after.mint.ids := by
  refine ⟨fun k hk hhas => ?_, ?_⟩
  · cases k <;> cases hk
    rcases h.comes hhas with hold | ⟨hnew, -⟩
    · exact (hissued.mono hgiven).1 _ rfl hold
    · exact hnew
  · rcases h with hcalm | ⟨-, _, _, _, -, -, -, -, hvectors⟩
    · intro k hk hhas
      cases k <;> cases hk
      obtain ⟨v, hv⟩ := Tables.has_vector_iff.1 hhas
      rw [hcalm.view.vectors] at hv
      exact (hissued.mono hgiven).2 _ rfl (Tables.has_vector_iff.2 ⟨v, hv⟩)
    · exact hvectors

/-- What the session `name` has made is nowhere else, also after an operation. -/
theorem Fits.own {after : Scene} (hfit : w.Fits s.tx after) (h : w.Meshing)
    (hs : w.sessions name = some s) {j : NodeId} (hj : after.tx.view.has (.node j))
    (hnew : s.start.view.has (.node j) = false) : w.Own name j := by
  rcases hfit.comes hj with hold | ⟨-, hunheard⟩
  · exact h.own name s hs j hold hnew
  · exact ⟨hunheard.committed, fun other t _ ht => hunheard.view other t ht⟩

/-- What an operation brings into a view nobody had heard of, also not the session that made it: it
is lacking in any other session `t`. -/
theorem Fits.lacks {after : Scene} (hfit : w.Fits s.tx after) (hs : w.sessions name = some s)
    {i : Nat} {t : Session α} (hne : name ≠ i) (ht : w.sessions i = some t) {j : NodeId}
    (hj : t.tx.view.has (.node j)) (hown : w.Own i j) : after.tx.view.has (.node j) = false := by
  rw [← Bool.not_eq_true]
  intro hhas
  rcases hfit.comes hhas with hold | ⟨-, hunheard⟩
  · rw [hown.view name s hne hs] at hold
    cases hold
  · rw [hunheard.view i t ht] at hj
    cases hj

/-- An operation `op` that fits keeps the invariant. -/
theorem Meshing.use (h : w.Meshing) (hw : w.Sound) (hop : Asks AnyRequest op) (hdraws : Draws op)
    (hfits : ∀ s, w.sessions name = some s →
      w.Fits s.tx (final (op { tx := s.tx, mint := w.store.mint }))) :
    (w.use name op remark).Meshing := by
  cases hs : w.sessions name with
  | none => rwa [World.use, hs]
  | some s =>
    have hsound := hw.sessions name s hs
    have hmeshing := h.sessions name s hs
    have hfit := hfits s hs
    have hbecomes : s.tx.Becomes AnyRequest (w.used op remark s).tx := hop ⟨s.tx, w.store.mint⟩
    have hgiven : w.store.mint.ids.given <+:
        (final (op { tx := s.tx, mint := w.store.mint })).mint.ids.given :=
      hdraws { tx := s.tx, mint := w.store.mint }
    have hissued := hfit.issued (h.issued_view name s hs) hgiven
    refine ⟨?_, fun i t ht => ?_, ?_, ?_, fun i t ht => ?_, fun i t ht j hj hnew => ?_⟩
    · rw [committed_use]
      exact h.committed
    · rw [sessions_use_eq hs, Function.update_apply] at ht
      split at ht
      · cases ht
        rcases hfit with hcalm | ⟨hser, network, agent, made, hkind, hrole, hfree, hjoins, -⟩
        · refine hmeshing.calmly hbecomes hsound.becomes hcalm fun j hj => ?_
          exact hsound.has_start_of_has (hj.2.view name s hs)
        · exact hmeshing.join hsound.keyed_view (hbecomes.isolation_eq.trans hser) hjoins hkind
            hrole hfree
      · exact h.sessions i t ht
    · rw [log_use]
      exact h.tied
    · rw [committed_use, mint_use hs]
      exact h.issued.mono hgiven
    · rw [mint_use hs]
      rw [sessions_use_eq hs, Function.update_apply] at ht
      split at ht
      · cases ht
        exact hissued
      · exact (h.issued_view i t ht).mono hgiven
    · rw [sessions_use_eq hs, Function.update_apply] at ht
      split at ht
      · rename_i hname
        subst hname
        cases ht
        have hown := hfit.own h hs hj hnew
        refine ⟨committed_use (w := w) ▸ hown.committed, fun other u hne hu => ?_⟩
        rw [sessions_use_eq hs, Function.update_apply, if_neg hne] at hu
        exact hown.view other u hne hu
      · rename_i hname
        have hown := h.own i t ht j hj hnew
        refine ⟨committed_use (w := w) ▸ hown.committed, fun other u hne hu => ?_⟩
        rw [sessions_use_eq hs, Function.update_apply] at hu
        split at hu
        · cases hu
          exact hfit.lacks hs (Ne.symm hname) ht hj hown
        · exact hown.view other u hne hu

end Use

/-! ### Commits -/

theorem sessions_commit_self (w : World α) (name : Nat) : (w.commit name).sessions name = none := by
  rw [World.commit]
  cases hs : w.sessions name with
  | none => exact hs
  | some s =>
    cases hc : w.store.conflicts s.tx with
    | true => simp only [Store.commit_of_conflicts hc]; exact Function.update_self ..
    | false => simp only [Store.commit_of_not_conflicts hc]; exact Function.update_self ..

section Commit

variable (hw : w.Sound) {name : Nat} {s : Session α} (hs : w.sessions name = some s)
include hw hs

variable (h : w.Meshing)
include h

/-- A session `s` in which an agent joined and that meets no conflict leaves the nodes and vectors
that it sees: since it searched the nodes, none was written since it began, and so no vector either.
-/
theorem Meshing.find?_apply (hser : s.tx.isolation = .serializable) (hscan : .node ∈ s.tx.scans)
    (hc : w.store.conflicts s.tx = false) {k : Key} (hk : k.entity = .node ∨ k.entity = .vector) :
    (w.store.committed.apply s.tx).tables.find? k = s.tx.view.find? k := by
  have hsound := hw.sessions name s hs
  have hnode : ∀ tx ∈ (w.log.map (·.tx)).drop s.began, ∀ i, .node i ∉ tx.writes :=
    fun tx htx i hi => hw.not_restsOn hs hser hc htx hi (.inr (.inr hscan))
  have hunwritten : ∀ tx ∈ (w.log.map (·.tx)).drop s.began, k ∉ tx.writes := by
    intro tx htx hwritten
    cases k with
    | node i => exact hnode tx htx i hwritten
    | vector i =>
      obtain ⟨u, hu, rfl⟩ := List.mem_map.1 (List.mem_of_mem_drop htx)
      obtain ⟨j, hj⟩ := h.tied u hu i hwritten
      exact hnode u.tx htx j hj
    | _ => rcases hk with hk | hk <;> cases hk
  by_cases hwrites : k ∈ s.tx.writes
  · exact hw.find?_apply_of_mem hs hwrites
  · rw [hw.find?_apply_of_notMem hs hwrites, hw.committed_eq,
      hsound.find?_committed hw.keyed_log hunwritten, hsound.find?_view hwrites]

/-- A session `s` that left vectors and membership alone also leaves them alone when it is
committed. -/
theorem Meshing.calm_apply (hc : w.store.conflicts s.tx = false)
    (hcourse : s.start.Calmly (fun i => s.start.view.has (.node i) = false) s.tx) :
    w.store.committed.tables.Calm (w.store.committed.apply s.tx).tables := by
  have hsound := hw.sessions name s hs
  -- a node that is written and was committed before was in the snapshot, and has not changed since
  have hstart : ∀ i n, .node i ∈ s.tx.writes → w.store.committed.tables.nodes[i]? = some n →
      s.start.view.nodes[i]? = some n := by
    intro i n hi hn
    rcases hcourse.nodes i hi with hwritten | hnew | hser
    · rw [hsound.writes_start] at hwritten
      cases hwritten
    · have hlacks := (h.own name s hs i (hsound.has_of_writes hi) hnew).committed
      rw [Tables.has_node_iff.2 ⟨n, hn⟩] at hlacks
      cases hlacks
    · have hser' : s.tx.isolation = .serializable := hsound.becomes.isolation_eq.trans hser
      rw [← Tables.nodes_congr (hw.find?_committed hs hser' hc (.inr (.inl hi))), hn]
  refine ⟨fun i => ?_, fun i n hn => ?_, fun i n hn hnone => ?_⟩
  · refine Tables.vectors_congr (hw.find?_apply_of_notMem hs fun hi => ?_)
    have hwritten := hcourse.vectors i hi
    rw [hsound.writes_start] at hwritten
    cases hwritten
  · by_cases hi : .node i ∈ s.tx.writes
    · rw [Tables.nodes_congr (hw.find?_apply_of_mem hs hi)]
      exact hcourse.view.stays i n (hstart i n hi hn)
    · rw [Tables.nodes_congr (hw.find?_apply_of_notMem hs hi)]
      exact ⟨n, hn, .refl n⟩
  · by_cases hi : .node i ∈ s.tx.writes
    · rw [Tables.nodes_congr (hw.find?_apply_of_mem hs hi)] at hn
      cases hold : s.start.view.nodes[i]? with
      | none => exact hcourse.view.comes i n hn hold
      | some old =>
        have hhas := hw.has_committed hs (Tables.has_node_iff.2 ⟨old, hold⟩)
        obtain ⟨_, hcommitted⟩ := Tables.has_node_iff.1 hhas
        rw [hnone] at hcommitted
        cases hcommitted
    · rw [Tables.nodes_congr (hw.find?_apply_of_notMem hs hi), hnone] at hn
      cases hn

/-- What is committed is fully connected after the commit of `s`. -/
theorem Meshing.meshed_apply (hc : w.store.conflicts s.tx = false) :
    (w.store.committed.apply s.tx).tables.Meshed := by
  rcases (h.sessions name s hs).course with ⟨hser, hscan⟩ | hcourse
  · refine (h.sessions name s hs).view.calm (.of_eq (fun i => ?_) fun i => ?_)
    · exact Tables.nodes_congr (h.find?_apply hw hs hser hscan hc (.inl rfl))
    · exact Tables.vectors_congr (h.find?_apply hw hs hser hscan hc (.inr rfl))
  · exact h.committed.calm (h.calm_apply hw hs hc hcourse)

end Commit

theorem Meshing.commit (h : w.Meshing) (hw : w.Sound) (name : Nat) : (w.commit name).Meshing := by
  -- the sessions that are left have other names
  have hne : ∀ {i t}, (w.commit name).sessions i = some t → i ≠ name := by
    rintro i t ht rfl
    rw [sessions_commit_self] at ht
    cases ht
  rcases commit_cases w name with ⟨hlog, hcommitted⟩ | ⟨s, hs, hc, hlog, hcommitted⟩
  · refine ⟨?_, fun i t ht => h.sessions i t (sessions_commit ht), ?_, ?_, fun i t ht => ?_,
      fun i t ht j hj hnew => ?_⟩
    · rw [hcommitted]
      exact h.committed
    · rw [hlog]
      exact h.tied
    · rw [hcommitted, mint_commit]
      exact h.issued
    · rw [mint_commit]
      exact h.issued_view i t (sessions_commit ht)
    · obtain ⟨hlacks, hview⟩ := h.own i t (sessions_commit ht) j hj hnew
      refine ⟨hcommitted ▸ hlacks, fun other u hother hu => ?_⟩
      exact hview other u hother (sessions_commit hu)
  · have hissued := h.issued_view name s hs
    refine ⟨?_, fun i t ht => h.sessions i t (sessions_commit ht), ?_, ?_, fun i t ht => ?_,
      fun i t ht j hj hnew => ?_⟩
    · rw [hcommitted]
      exact h.meshed_apply hw hs hc
    · rw [hlog]
      intro t ht
      rcases List.mem_append.1 ht with ht | ht
      · exact h.tied t ht
      · rw [List.mem_singleton.1 ht]
        exact (h.sessions name s hs).tied
    · rw [hcommitted, mint_commit]
      refine ⟨fun k hk hhas => ?_, fun k hk hhas => ?_⟩
      · rcases hw.has_apply_cases hs hhas with hhas | hhas
        · exact h.issued.1 k hk hhas
        · exact hissued.1 k hk hhas
      · rcases hw.has_apply_cases hs hhas with hhas | hhas
        · exact h.issued.2 k hk hhas
        · exact hissued.2 k hk hhas
    · rw [mint_commit]
      exact h.issued_view i t (sessions_commit ht)
    · obtain ⟨hlacks, hview⟩ := h.own i t (sessions_commit ht) j hj hnew
      refine ⟨?_, fun other u hother hu => hview other u hother (sessions_commit hu)⟩
      rw [hcommitted]
      cases hhas : (w.store.committed.apply s.tx).tables.has (.node j) with
      | false => rfl
      | true =>
        rcases hw.has_apply_cases hs hhas with hhas | hhas
        · rw [hlacks] at hhas
          cases hhas
        · rw [hview name s (hne ht).symm hs] at hhas
          cases hhas

/-! ## Runs -/

end World

section Terms

variable {α : Type}

/-- The session `s` may have an agent join through `copy`: it is serializable, and in its view the
agent is in no network. -/
def Session.MayJoin (s : Session α) (copy : Node) : Prop :=
  s.tx.isolation = .serializable ∧ ∀ stored ∈ s.tx.view.nodes[copy.id]?,
    stored.network = none ∧ stored.kind.role = copy.kind.role

/-- The session `s` may replace a node by `n`: it made the node itself or is serializable, and the
membership is the same. -/
def Session.MayAmend (s : Session α) (n : Node) : Prop :=
  (.node n.id ∈ s.tx.writes ∨ s.tx.isolation = .serializable) ∧
    ∀ stored ∈ s.tx.view.nodes[n.id]?,
      n.network = stored.network ∧ n.kind.role = stored.kind.role

instance (s : Session α) (copy : Node) : Decidable (s.MayJoin copy) :=
  inferInstanceAs (Decidable (_ ∧ _))

end Terms

namespace World

variable {α β : Type} {w : World α}

/-- Runs in which agents are created alive and in no network, join a fully connected network in
serializable transactions, and end in such. Everything else is free, as long as it changes neither
vectors nor membership. -/
inductive Joining : World α → Prop
  | init (mint : Mint) : Joining (init mint)
  | begin (name : Nat) (mode : TxMode) (isolation : Isolation) (note : α) {w : World α} :
    Joining w → Joining (w.begin name mode isolation note)
  | create (name : Nat) (kind : NodeKind) (remark : Except Error Node → α → α) {w : World α} :
    Joining w → Joining (w.use name (Node.create kind) remark)
  /-- A node that was made outside the store, and which nobody has heard of. -/
  | insert (name : Nat) {n : Node} (hfree : n.network = none)
    (remark : Except Error Node → α → α) {w : World α}
    (hissued : n.id.number ∈ w.store.mint.ids.given) (hnew : w.Unheard n.id) :
    Joining w → Joining (w.use name (Op.access (Node.insert n)) remark)
  /-- The copy, which may be out of date, is of an agent that is in no network. -/
  | join (name : Nat) {network : Network} (hkind : network.kind = .fullyConnected) {copy : Node}
    (remark : Except Error Unit → α → α) {w : World α}
    (hsession : ∀ s ∈ w.sessions name, s.MayJoin copy) :
    Joining w → Joining (w.use name (Holding.on copy network.addAgent) remark)
  | finish (name : Nat) (target : NodeStatus) (copy : Node) (remark : Except Error Unit → α → α)
    {w : World α} (hser : ∀ s ∈ w.sessions name, s.tx.isolation = .serializable) :
    Joining w → Joining (w.use name (Holding.on copy (Node.finish target)) remark)
  /-- A node may be replaced by one of the same membership. -/
  | amend (name : Nat) (n : Node) (remark : Except Error Unit → α → α) {w : World α}
    (hsession : ∀ s ∈ w.sessions name, s.MayAmend n) :
    Joining w → Joining (w.use name (Op.access (Access.revise (.node n))) remark)
  | other (name : Nat) {β : Type} {op : Op β} (hop : Asks Request.Aside op) (hdraws : Draws op)
    (remark : Except Error β → α → α) {w : World α} :
    Joining w → Joining (w.use name op remark)
  | commit (name : Nat) {w : World α} : Joining w → Joining (w.commit name)
  | rollback (name : Nat) {w : World α} : Joining w → Joining (w.rollback name)
  | aside {f : Store → Store} (hf : ∀ s, (f s).committed = s.committed)
    (hgiven : ∀ s, s.mint.ids.given <+: (f s).mint.ids.given) {w : World α} :
    Joining w → Joining (w.aside f)

/-! ### Operations in a run -/

section Operations

variable {name : Nat}

/-- Nobody has heard of a node `i` whose identifier was not given out. -/
theorem Meshing.unheard (h : w.Meshing) {i : NodeId} (hi : i.number ∉ w.store.mint.ids.given) :
    w.Unheard i := by
  refine ⟨?_, fun name s hs => ?_⟩
  · rw [← Bool.not_eq_true]
    exact fun hhas => hi (h.issued.1 _ rfl hhas)
  · rw [← Bool.not_eq_true]
    exact fun hhas => hi ((h.issued_view name s hs).1 _ rfl hhas)

theorem Meshing.create (h : w.Meshing) (hw : w.Sound) {kind : NodeKind}
    {remark : Except Error Node → α → α}
    (hfresh : (w.use name (Node.create kind) remark).store.mint.ids.given.Nodup) :
    (w.use name (Node.create kind) remark).Meshing := by
  refine h.use hw (Node.asks_create (fun _ _ => trivial) kind) (Node.draws_create kind)
    fun s hs => ?_
  have hgiven : (final (Node.create kind { tx := s.tx, mint := w.store.mint })).mint.ids.given =
      w.store.mint.ids.given ++ [(Node.fresh kind w.store.mint).1.id.number] := by
    rw [Node.create, Op.bind_of_ok (Op.minting_apply _ _), Op.final_access, Node.given_fresh]
  rw [mint_use hs, hgiven] at hfresh
  refine .inl (Node.calmly_create ⟨?_, h.unheard fun hold => ?_⟩)
  · rw [hgiven]
    exact List.mem_concat_self
  · exact (List.nodup_append.1 hfresh).2.2 _ hold _ (.head _) rfl

theorem Meshing.insert (h : w.Meshing) (hw : w.Sound) {n : Node}
    {remark : Except Error Node → α → α} (hfree : n.network = none)
    (hissued : n.id.number ∈ w.store.mint.ids.given) (hnew : w.Unheard n.id) :
    (w.use name (Op.access (Node.insert n)) remark).Meshing := by
  refine h.use hw (.access (.bind (.insert trivial) fun _ => .pure _)) (.access _)
    fun s _ => .inl ?_
  have hfinal := Op.final_access (Node.insert n) { tx := s.tx, mint := w.store.mint }
  change final (Op.access (Node.insert n) _) = _ at hfinal
  rw [hfinal]
  exact Node.calmly_insert hfree ⟨hissued, hnew⟩

theorem Meshing.join (h : w.Meshing) (hw : w.Sound) {network : Network} {copy : Node}
    {remark : Except Error Unit → α → α} (hkind : network.kind = .fullyConnected)
    (hsession : ∀ s ∈ w.sessions name, s.MayJoin copy)
    (hfresh : (w.use name (Holding.on copy network.addAgent) remark).store.mint.ids.given.Nodup) :
    (w.use name (Holding.on copy network.addAgent) remark).Meshing := by
  refine h.use hw ((network.asks_addAgent fun _ _ => trivial).on copy)
    (network.draws_addAgent.on copy) fun s hs => ?_
  rw [mint_use hs, Holding.scene_final_on] at hfresh
  rw [Holding.scene_final_on]
  obtain ⟨hser, hcopy⟩ := hsession s hs
  rcases Network.joins_addAgent (hw.sessions name s hs).keyed_view (h.issued_view name s hs).2
    hfresh with hcalm | ⟨stored, made, hrole, hstored, hjoins, hissued⟩
  · exact .inl hcalm
  · obtain ⟨hfree, hsame⟩ := hcopy stored hstored
    exact .inr ⟨hser, network, stored, made, hkind, hsame.trans hrole, hfree, hjoins, hissued⟩

theorem Meshing.finish (h : w.Meshing) (hw : w.Sound) {target : NodeStatus} {copy : Node}
    {remark : Except Error Unit → α → α}
    (hser : ∀ s ∈ w.sessions name, s.tx.isolation = .serializable) :
    (w.use name (Holding.on copy (Node.finish target)) remark).Meshing := by
  refine h.use hw ((Node.asks_finish (fun _ _ => trivial) target).on copy)
    ((Node.draws_finish target).on copy) fun s hs => .inl ?_
  rw [Holding.scene_final_on]
  exact Node.calmly_finish (hw.sessions name s hs).keyed_view (hser s hs)

theorem Meshing.amend (h : w.Meshing) (hw : w.Sound) {n : Node} {remark : Except Error Unit → α → α}
    (hsession : ∀ s ∈ w.sessions name, s.MayAmend n) :
    (w.use name (Op.access (Access.revise (.node n))) remark).Meshing := by
  refine h.use hw (.access (.revise trivial)) (.access _) fun s hs => .inl ?_
  have hfinal := Op.final_access (Access.revise (.node n)) { tx := s.tx, mint := w.store.mint }
  change final (Op.access (Access.revise (.node n)) _) = _ at hfinal
  rw [hfinal]
  exact Node.calmly_revise (hsession s hs).2 (hsession s hs).1

theorem Meshing.other (h : w.Meshing) (hw : w.Sound) {op : Op β} {remark : Except Error β → α → α}
    (hop : Asks Request.Aside op) (hdraws : Draws op) : (w.use name op remark).Meshing :=
  h.use hw (hop.mono fun _ _ => trivial) hdraws fun s _ =>
    .inl (hop { tx := s.tx, mint := w.store.mint }).calmly

end Operations

theorem Joining.reachable (h : w.Joining) : w.Reachable := by
  have hany : ∀ r : Request, r.delivers = false → AnyRequest r := fun _ _ => trivial
  induction h with
  | init mint => exact .init mint
  | begin name mode isolation note _ ih => exact ih.begin name mode isolation note
  | create name kind remark _ ih => exact ih.use name (Node.asks_create hany kind) remark
  | insert name _ remark _ _ _ ih =>
    exact ih.use name (.access (.bind (.insert trivial) fun _ => .pure _)) remark
  | @join name network _ copy remark _ _ _ ih =>
    exact ih.use name ((network.asks_addAgent hany).on copy) remark
  | finish name target copy remark _ _ ih =>
    exact ih.use name ((Node.asks_finish hany target).on copy) remark
  | amend name n remark _ _ ih => exact ih.use name (.access (.revise trivial)) remark
  | other name hop _ remark _ ih => exact ih.use name (hop.mono fun _ _ => trivial) remark
  | commit name _ ih => exact ih.commit name
  | rollback name _ ih => exact ih.rollback name
  | aside hf _ _ ih => exact ih.aside hf

/-- Where identifiers are fresh, a world of `Joining` keeps the invariant. -/
theorem Joining.meshing (h : w.Joining) (hfresh : w.store.mint.ids.given.Nodup) : w.Meshing := by
  induction h with
  | init mint => exact meshing_init mint
  | begin name mode isolation note _ ih => exact (ih hfresh).begin name mode isolation note
  | create name kind remark hw ih =>
    have h := ih (hfresh.sublist (given_use (Node.draws_create kind)).sublist)
    exact h.create hw.reachable.sound hfresh
  | insert name hfree remark hissued hnew hw ih =>
    have h := ih (hfresh.sublist (given_use (.access _)).sublist)
    exact h.insert hw.reachable.sound hfree hissued hnew
  | @join name network hkind copy remark w hsession hw ih =>
    have h := ih (hfresh.sublist (given_use (network.draws_addAgent.on copy)).sublist)
    exact h.join hw.reachable.sound hkind hsession hfresh
  | finish name target copy remark hser hw ih =>
    have h := ih (hfresh.sublist (given_use ((Node.draws_finish target).on copy)).sublist)
    exact h.finish hw.reachable.sound hser
  | amend name n remark hsession hw ih =>
    have h := ih (hfresh.sublist (given_use (.access _)).sublist)
    exact h.amend hw.reachable.sound hsession
  | other name hop hdraws remark hw ih =>
    have h := ih (hfresh.sublist (given_use hdraws).sublist)
    exact h.other hw.reachable.sound hop hdraws
  | commit name hw ih =>
    rw [mint_commit] at hfresh
    exact (ih hfresh).commit hw.reachable.sound name
  | rollback name _ ih => exact (ih hfresh).rollback name
  | @aside f hf hgiven w _ ih =>
    exact (ih (hfresh.sublist (hgiven w.store).sublist)).aside (hf w.store) (hgiven w.store)

/-- In what is committed, of two different members of one network that are alive each is joined with
the other by exactly one vector, however the transactions interleave in which agents are created,
join and end, and no vector leads from a node to itself. -/
theorem Joining.fullyConnected (h : w.Joining) (hfresh : w.store.mint.ids.given.Nodup) :
    let t := w.store.committed.tables
    (∀ a b : Node, t.nodes[a.id]? = some a → t.nodes[b.id]? = some b → a.id ≠ b.id →
      a.isAlive → b.isAlive → ∀ i : NetworkId, a.network = some i → b.network = some i →
      ∃! v : Vector, t.vectors[v.id]? = some v ∧ v.origin = a.id ∧ v.destination = b.id) ∧
    ∀ (i : VectorId) (v : Vector), t.vectors[i]? = some v → v.origin ≠ v.destination := by
  intro t
  have hmeshed : t.Meshed := (h.meshing hfresh).committed
  have hkeyed : ∀ (k : VectorId) (v : Vector), t.vectors[k]? = some v → v.id = k := fun k v hv =>
    Key.vector.inj (h.reachable.sound.keyed_committed (.vector k) (.vector v)
      (by rw [Tables.find?, hv]; rfl))
  refine ⟨fun a b ha hb hab halive halive' i hi hi' => ?_, fun i v hv => (hmeshed.ends i v hv).1⟩
  obtain ⟨k, v, hv, ho, hd⟩ := hmeshed.joined a.id b.id a b ha hb hab halive halive'
    (by rw [hi]; rfl) (hi'.trans hi.symm)
  have hk := hkeyed k v hv
  subst hk
  refine ⟨v, ⟨hv, ho, hd⟩, ?_⟩
  rintro u ⟨hu, ho', hd'⟩
  have hid : v.id = u.id :=
    hmeshed.once v.id u.id v u hv hu (ho'.trans ho.symm) (hd'.trans hd.symm)
  rw [← hid, hv] at hu
  exact (Option.some.inj hu).symm

/-- The agent numbered `agent` joins the fully connected network of `founding`. -/
def joining (name agent : Nat) (w : World Unit) : World Unit :=
  w.use name (Holding.on (Node.numbered agent) network.addAgent) fun _ note => note
where
  network : Network := { id := ⟨0⟩, kind := .fullyConnected, creationTime := .ofMoment .first }

theorem Joining.joining {w : World Unit} (h : w.Joining) (name agent : Nat)
    (hsession : ∀ s ∈ w.sessions name, s.MayJoin (.numbered agent)) :
    (w.joining name agent).Joining := .join name rfl _ hsession h

/-- A fully connected network is made, and two agents that are in no network. -/
def founding : World Unit :=
  let opened := ((init .still : World Unit).begin 0 .readWrite .serializable ()).use 0
    (Network.create .fullyConnected) fun _ note => note
  let created := (opened.use 0 (Node.create .agent) fun _ note => note).use 0 (Node.create .agent)
    fun _ note => note
  created.commit 0

/-- Both agents join at the same time: the second transaction meets a conflict. -/
def meeting : World Unit :=
  let begun := (founding.begin 1 .readWrite .serializable ()).begin 2 .readWrite .serializable ()
  (((begun.joining 1 1).joining 2 2).commit 1).commit 2

/-- The second transaction is made again. -/
def reunion : World Unit :=
  ((meeting.begin 2 .readWrite .serializable ()).joining 2 2).commit 2

theorem joining_founding : founding.Joining := by
  have hop : Asks Request.Aside (Network.create .fullyConnected) := by
    refine .bind (.minting _) fun network => .bind (.access (.insert ?_)) fun _ => .pure _
    rintro _ ⟨⟩
    exact ⟨nofun, nofun⟩
  have hbegun := (Joining.init .still : (init .still : World Unit).Joining).begin 0 .readWrite
    .serializable ()
  have hopened := hbegun.other 0 hop (Network.draws_create _) fun _ note => note
  have hcreated := (hopened.create 0 .agent fun _ note => note).create 0 .agent fun _ note => note
  exact hcreated.commit 0

theorem joining_reunion : reunion.Joining := by
  have hbegun := (joining_founding.begin 1 .readWrite .serializable ()).begin 2 .readWrite
    .serializable ()
  have hboth := (hbegun.joining 1 1 (by decide +kernel)).joining 2 2 (by decide +kernel)
  have hmeeting : meeting.Joining := (hboth.commit 1).commit 2
  have hagain := (hmeeting.begin 2 .readWrite .serializable ()).joining 2 2 (by decide +kernel)
  exact hagain.commit 2

/-- In the end both agents have joined, and a vector leads from the first to the second. -/
theorem fullyConnected_reunion :
    founding.log.length = 1 ∧ meeting.log.length = 2 ∧ reunion.log.length = 3 ∧
      ∃! v : Vector, reunion.store.committed.tables.vectors[v.id]? = some v ∧
        v.origin = (Node.numbered 1).id ∧ v.destination = (Node.numbered 2).id := by
  have hmember : ∀ i ∈ [1, 2], ∃ n : Node, n.id = (Node.numbered i).id ∧
      reunion.store.committed.tables.nodes[n.id]? = some n ∧ n.isAlive ∧
      n.network = some joining.network.id := by
    have hany : ∀ i ∈ [1, 2], (reunion.store.committed.tables.nodes[(Node.numbered i).id]?).any
        fun n => n.id = (Node.numbered i).id ∧ n.isAlive ∧ n.network = some joining.network.id := by
      decide +kernel
    intro i hi
    obtain ⟨hsome, hstate⟩ := (Option.any_eq_true_iff_get _ _).1 (hany i hi)
    obtain ⟨hid, halive, hnetwork⟩ := of_decide_eq_true hstate
    exact ⟨_, hid, by rw [hid, Option.some_get], halive, hnetwork⟩
  obtain ⟨a, hida, ha, halive, hnetwork⟩ := hmember 1 (.head _)
  obtain ⟨b, hidb, hb, halive', hnetwork'⟩ := hmember 2 (.tail _ (.head _))
  have hfresh : reunion.store.mint.ids.given.Nodup := by decide +kernel
  have hjoined := (joining_reunion.fullyConnected hfresh).1 a b ha hb (by rw [hida, hidb]; decide)
    halive halive' _ hnetwork hnetwork'
  rw [hida, hidb] at hjoined
  exact ⟨by decide +kernel, by decide +kernel, by decide +kernel, hjoined⟩

end World

end Propagation
