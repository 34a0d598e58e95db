import Propagation.Proofs.Resolving

/-!
# What a plan finds

A plan that succeeds has found some infos and some nodes. The infos are what a content stands for,
which was given or is what the behavior supplies; the nodes are what the recipients stand for. To
plan is to look, except that a source which is not told what to send stores an info of its own, when
it is clear that there is somebody to send to.

All nodes of a plan are stored. So are its infos, unless they were named by the content that was
given: that an info is stored is not asked before it is sent.

## Main definitions

* `Content.named`: the infos that a content names one by one.
* `Behavior.Provided`: the behaviors that come with the store.
* `Behavior.Supplies`: what is sent, and what the behavior has stored for that.
* `Node.Plans`: the infos and the nodes of a plan.

## Main statements

* `Content.mem_read`, `Recipients.any_of_mem_read`: what is read is the node's own, and where a
  live vector leads.
* `Node.plans_of_plan`: what a plan that succeeds has found.
* `Node.stored_of_plan`: what is stored of it.
-/

namespace Propagation

open Std (ExtTreeMap)

/-! ## Taking runs apart -/

namespace Op

variable {σ α β : Type} {x : EStateM Error σ α} {f : α → EStateM Error σ β} {s s'' : σ}

/-- If `x` and then `f` succeed, both parts do. -/
theorem of_bind_ok {b : β} (h : (x >>= f) s = .ok b s'') :
    ∃ a s', x s = .ok a s' ∧ f a s' = .ok b s'' := by
  change EStateM.bind x f s = .ok b s'' at h
  rw [EStateM.bind] at h
  cases hx : x s with
  | ok a s' => rw [hx] at h; exact ⟨a, s', rfl, h⟩
  | error e s' => rw [hx] at h; cases h

/-- If `x` and then `f` fail, one part does. -/
theorem of_bind_error {e : Error} (h : (x >>= f) s = .error e s'') :
    x s = .error e s'' ∨ ∃ a s', x s = .ok a s' ∧ f a s' = .error e s'' := by
  change EStateM.bind x f s = .error e s'' at h
  rw [EStateM.bind] at h
  cases hx : x s with
  | ok a s' => rw [hx] at h; exact .inr ⟨a, s', rfl, h⟩
  | error e' s' => rw [hx] at h; cases h; exact .inl rfl

theorem of_access_ok {a : Access α} {s s' : Scene} {v : α}
    (h : (liftM a : Op α) s = .ok v s') : ∃ tx, a s.tx = .ok v tx ∧ s' = { s with tx } := by
  change Op.access a s = .ok v s' at h
  rw [Op.access] at h
  cases ha : a s.tx with
  | ok u tx => rw [ha] at h; cases h; exact ⟨tx, rfl, rfl⟩
  | error e tx => rw [ha] at h; cases h

end Op

/-! ## What is read -/

mutual

/-- The infos that a content names one by one. -/
def Content.named : Content → List Info
  | .info i => [i]
  | .ofType _ => []
  | .many items => Content.namedAll items

/-- The infos that several contents name one by one. -/
def Content.namedAll : List Content → List Info
  | [] => []
  | c :: rest => c.named ++ Content.namedAll rest

end

/-- What is read in two parts was read in `r` or in `s`. -/
theorem append_of_ok {α : Type} {r s : Except Error (List α)} {zs : List α}
    (h : (do return (← r) ++ (← s) : Except Error (List α)) = .ok zs) :
    ∃ xs ys, r = .ok xs ∧ s = .ok ys ∧ zs = xs ++ ys := by
  cases r with
  | error e => cases h
  | ok xs =>
    cases s with
    | error e => cases h
    | ok ys => cases h; exact ⟨xs, ys, rfl, rfl, rfl⟩

mutual

/-- An info that `Content.read` finds is one of the node's own, and it is named or stored. -/
theorem Content.mem_read {t : Tables} {n : NodeId} {i : Info} {infos : List Info}
    (hi : i ∈ infos) : ∀ {c : Content}, c.read t n = .ok infos →
      i.origin = n ∧ (i ∈ c.named ∨ i ∈ Tables.rows t.infos)
  | .info j, h => by
    rw [read] at h
    split at h <;> cases h
    rename_i horigin
    rw [List.mem_singleton.1 hi]
    exact ⟨horigin, .inl (.head _)⟩
  | .ofType f, h => by
    cases h
    obtain ⟨hrow, horigin, -⟩ := Tables.mem_authored.1 hi
    exact ⟨horigin, .inr hrow⟩
  | .many items, h => by
    rw [read] at h
    exact Content.mem_readAll hi h

theorem Content.mem_readAll {t : Tables} {n : NodeId} {i : Info} {infos : List Info}
    (hi : i ∈ infos) : ∀ {items : List Content}, Content.readAll t n items = .ok infos →
      i.origin = n ∧ (i ∈ Content.namedAll items ∨ i ∈ Tables.rows t.infos)
  | [], h => by
    cases h
    cases hi
  | c :: rest, h => by
    rw [readAll] at h
    obtain ⟨xs, ys, hc, hrest, rfl⟩ := append_of_ok h
    rw [namedAll, List.mem_append]
    rcases List.mem_append.1 hi with hx | hy
    · exact (Content.mem_read hx hc).imp_right (.imp_left .inl)
    · exact (Content.mem_readAll hy hrest).imp_right (.imp_left .inr)

end

mutual

/-- One of `vectors` leads to a node that `Recipients.read` finds. -/
theorem Recipients.any_of_mem_read {t : Tables} (ht : t.Intact) {n : NodeId}
    {vectors : List Vector} {m : Node} {nodes : List Node} (hm : m ∈ nodes) :
    ∀ {r : Recipients}, r.read t n vectors = .ok nodes → vectors.any (·.destination = m.id)
  | .node m', h => by
    rw [read] at h
    split at h <;> cases h
    rename_i hany
    rw [List.mem_singleton.1 hm]
    exact hany
  | .ofType f, h => by
    cases h
    exact Node.any_of_mem_reached ht hm
  | .many items, h => by
    rw [read] at h
    exact Recipients.any_of_mem_readAll ht hm h

theorem Recipients.any_of_mem_readAll {t : Tables} (ht : t.Intact) {n : NodeId}
    {vectors : List Vector} {m : Node} {nodes : List Node} (hm : m ∈ nodes) :
    ∀ {items : List Recipients}, Recipients.readAll t n vectors items = .ok nodes →
      vectors.any (·.destination = m.id)
  | [], h => by
    cases h
    cases hm
  | r :: rest, h => by
    rw [readAll] at h
    obtain ⟨xs, ys, hr, hrest, rfl⟩ := append_of_ok h
    rcases List.mem_append.1 hm with hx | hy
    · exact Recipients.any_of_mem_read ht hx hr
    · exact Recipients.any_of_mem_readAll ht hy hrest

end

/-- What is not empty was so from the start. -/
theorem eq_ok_of_nonempty {α : Type} {r : Except Error (List α)} {e : Error} {xs : List α}
    (h : r >>= nonempty e = .ok xs) : r = .ok xs ∧ xs ≠ [] := by
  cases r with
  | error e' => cases h
  | ok ys =>
    cases ys with
    | nil => cases h
    | cons y ys =>
      cases h
      exact ⟨rfl, List.cons_ne_nil _ _⟩

/-- What is read without repetitions of its `key` was read. -/
theorem exists_of_map_distinct {α β : Type} [DecidableEq β] {key : α → β}
    {r : Except Error (List α)} {zs : List α} (h : r.map (distinct key) = .ok zs) :
    ∃ xs, r = .ok xs ∧ zs = distinct key xs := by
  cases r with
  | error e => cases h
  | ok xs =>
    cases h
    exact ⟨xs, rfl, rfl⟩

/-- The infos that a content stands for are the node's own, and they are named or stored. -/
theorem Content.of_mem_distinct {t : Tables} (ht : t.Intact) {n : NodeId} {c : Content}
    {infos : List Info} (h : (c.read t n).map (distinct (·.id)) = .ok infos) :
    ∀ i ∈ infos, i.origin = n ∧ (i ∈ c.named ∨ t.infos[i.id]? = some i) := by
  obtain ⟨xs, hxs, rfl⟩ := exists_of_map_distinct h
  intro i hi
  refine (Content.mem_read ((distinct_sublist _ xs).mem hi) hxs).imp_right
    (.imp_right fun hrow => ?_)
  obtain ⟨j, hj⟩ := Tables.mem_rows.1 hrow
  rw [(ht.info j i hj).1]
  exact hj

/-- One of `vectors` leads to each of the nodes that recipients stand for. -/
theorem Recipients.any_of_mem_distinct {t : Tables} (ht : t.Intact) {n : NodeId}
    {vectors : List Vector} {r : Recipients} {nodes : List Node}
    (h : (r.read t n vectors).map (distinct (·.id)) = .ok nodes) :
    ∀ m ∈ nodes, vectors.any (·.destination = m.id) := by
  obtain ⟨xs, hxs, rfl⟩ := exists_of_map_distinct h
  exact fun m hm => Recipients.any_of_mem_read ht ((distinct_sublist _ xs).mem hm) hxs

/-- Where a live vector of `foundAlive` leads to the node `i`, this node is stored. -/
theorem Tables.mem_nodes_of_foundAlive {t : Tables} (ht : t.Intact) {n i : NodeId}
    (h : (t.foundAlive n).any (·.destination = i)) : i ∈ t.nodes := by
  obtain ⟨v, hv, hdestination⟩ := List.any_eq_true.1 h
  obtain ⟨j, hj⟩ := stored_of_mem_selectVectors hv
  rw [← of_decide_eq_true hdestination]
  exact (ht.vector j v hj).2.2

namespace Node

variable {n : Node} {tx tx' : Transaction} (ht : tx.view.Intact)
include ht

theorem read_of_someContent {c : Content} {infos : List Info}
    (h : n.someContent c tx = .ok infos tx') :
    ((c.read tx.view n.id).map (distinct (·.id)) = .ok infos ∧ infos ≠ []) ∧ tx.Noted tx' :=
  ((n.answers_someContent ht c rfl).of_ok h).imp_left eq_ok_of_nonempty

theorem read_of_someRecipients {r : Recipients} {nodes : List Node}
    (h : n.someRecipients r tx = .ok nodes tx') :
    ((r.read tx.view n.id (tx.view.foundAlive n.id)).map (distinct (·.id)) = .ok nodes ∧
      nodes ≠ []) ∧ tx.Noted tx' :=
  ((n.answers_someRecipients ht r rfl).of_ok h).imp_left eq_ok_of_nonempty

/-- The infos of `someContent` are the node's own, named or stored, and to find them changes
nothing. -/
theorem of_someContent {c : Content} {infos : List Info}
    (h : n.someContent c tx = .ok infos tx') :
    tx'.view = tx.view ∧ ∀ i ∈ infos, i.origin = n.id ∧
      (i ∈ c.named ∨ tx.view.infos[i.id]? = some i) := by
  obtain ⟨⟨hread, -⟩, hnoted⟩ := read_of_someContent ht h
  exact ⟨hnoted.view_eq, Content.of_mem_distinct ht hread⟩

/-- A live vector leads to each node of `someRecipients`, and to find them changes nothing. -/
theorem of_someRecipients {r : Recipients} {nodes : List Node}
    (h : n.someRecipients r tx = .ok nodes tx') :
    tx'.view = tx.view ∧ ∀ m ∈ nodes, (tx.view.foundAlive n.id).any (·.destination = m.id) := by
  obtain ⟨⟨hread, -⟩, hnoted⟩ := read_of_someRecipients ht h
  exact ⟨hnoted.view_eq, Recipients.any_of_mem_distinct ht hread⟩

end Node

/-! ## Behaviors -/

/-- The behaviors that come with the store. -/
inductive Behavior.Provided : Behavior → Prop
  | plain : Provided .plain
  | replicator : Provided .replicator
  | constantSource (infoType contents : String) : Provided (.constantSource infoType contents)

/-- What is sent if `t` is what there is before, and the tables `base` after the behavior was asked,
where it is asked at all. A source stores one info, which is the node's own. -/
inductive Behavior.Supplies (n : Node) (t : Tables) :
    Behavior → Option Content → Content → Tables → Prop
  | given (b : Behavior) (c : Content) : Supplies n t b (some c) c t
  | plain : Supplies n t .plain none (.ofType .any) t
  | replicator : Supplies n t .replicator none (.ofType .any) t
  | constantSource {infoType contents : String} {i : Info} (hfree : t.infos[i.id]? = none)
    (horigin : i.origin = n.id) (htype : i.infoType = infoType)
    (hcontents : i.contents = some contents) :
    Supplies n t (.constantSource infoType contents) none (.info i)
      { t with infos := t.infos.insert i.id i }

/-- An info of `create` has what was asked for, and is stored under an identifier that was free.
Nothing else is stored. -/
theorem Info.of_create {origin : NodeId} {infoType contents : String} {i : Info} {s s' : Scene}
    (h : Info.create origin infoType contents s = .ok i s') :
    s.tx.view.infos[i.id]? = none ∧
      (i.origin = origin ∧ i.infoType = infoType ∧ i.contents = some contents) ∧
      s'.tx.view = { s.tx.view with infos := s.tx.view.infos.insert i.id i } := by
  obtain ⟨fresh, s₁, hfresh, hlift⟩ := Op.of_bind_ok h
  obtain ⟨tx, hinsert, rfl⟩ := Op.of_access_ok hlift
  obtain ⟨⟨⟩, tx', hstore, hpure⟩ := Op.of_bind_ok hinsert
  obtain ⟨haccept, -, rfl⟩ := Access.recordIf_ok hstore
  cases hfresh
  cases hpure
  refine ⟨?_, ⟨rfl, rfl, rfl⟩, rfl⟩
  simpa [Tables.find?, Record.key] using Record.find?_of_accept haccept

namespace Behavior.Provided

variable {b : Behavior} (hb : b.Provided)
include hb

theorem asks : b.Asks fun r => r.delivers = false := by
  cases hb with
  | plain => exact asks_plain
  | replicator => exact asks_replicator fun _ h => h
  | constantSource infoType contents => exact asks_constantSource (fun _ h => h) infoType contents

/-- Without recipients, a behavior `b` that comes with the store sends to all that the node can
reach. -/
theorem planRecipients_eq (n : Node) (r : Option Recipients) :
    n.planRecipients b r = liftM (n.someRecipients (r.getD (.ofType .any))) := by
  cases hb <;> cases r <;> rfl

/-- What a behavior `b` that comes with the store names to send, and what it has stored for that. -/
theorem supplies {n : Node} {c : Option Content} {s s' : Scene} (h : b.content n s = .ok c s') :
    ∃ c', c = some c' ∧ b.Supplies n s.tx.view none c' s'.tx.view := by
  cases hb with
  | plain =>
    cases h
    exact ⟨_, rfl, .plain⟩
  | replicator =>
    cases h
    exact ⟨_, rfl, .replicator⟩
  | constantSource infoType contents =>
    obtain ⟨i, s₁, hcreate, hpure⟩ := Op.of_bind_ok h
    cases hpure
    obtain ⟨hfree, ⟨horigin, htype, hcontents⟩, hview⟩ := Info.of_create hcreate
    rw [hview]
    exact ⟨_, rfl, .constantSource hfree horigin htype hcontents⟩

end Behavior.Provided

/-! ## Plans -/

namespace Node

theorem mem_pairs {infos : List Info} {nodes : List Node} {p : Info × Node} :
    p ∈ pairs infos nodes ↔ p.1 ∈ infos ∧ p.2 ∈ nodes := by
  obtain ⟨i, m⟩ := p
  simp [pairs]

/-- The infos of a plan are what `c` stands for, and its nodes are what `r` stands for, each once,
and there are some of both. Without recipients, those are meant that a live vector leads to. -/
structure Plans (n : Node) (b : Behavior) (c : Option Content) (r : Option Recipients)
    (t base : Tables) (infos : List Info) (nodes : List Node) : Prop where
  content : ∃ c', b.Supplies n t c c' base ∧
    (c'.read base n.id).map (distinct (·.id)) = .ok infos
  recipients : ((r.getD (.ofType .any)).read t n.id (t.foundAlive n.id)).map (distinct (·.id)) =
    .ok nodes
  infos_ne_nil : infos ≠ []
  nodes_ne_nil : nodes ≠ []

namespace Plans

variable {n : Node} {b : Behavior} {c : Option Content} {r : Option Recipients} {t base : Tables}
  {infos : List Info} {nodes : List Node} (h : n.Plans b c r t base infos nodes)
include h

/-- No info and no node is there twice. -/
theorem nodup : (infos.map (·.id)).Nodup ∧ (nodes.map (·.id)).Nodup := by
  obtain ⟨c', -, hinfos⟩ := h.content
  obtain ⟨xs, -, rfl⟩ := exists_of_map_distinct hinfos
  obtain ⟨ys, -, rfl⟩ := exists_of_map_distinct h.recipients
  exact ⟨nodup_map_distinct _ xs, nodup_map_distinct _ ys⟩

variable (ht : t.Intact)
include ht

/-- The nodes of a plan are stored. -/
theorem mem_nodes {m : Node} (hm : m ∈ nodes) : m.id ∈ base.nodes := by
  have hmem :=
    Tables.mem_nodes_of_foundAlive ht (Recipients.any_of_mem_distinct ht h.recipients m hm)
  obtain ⟨c', hsupplies, -⟩ := h.content
  cases hsupplies <;> exact hmem

/-- The infos of a plan are stored, or they are named by the content that was given, and then to
plan has stored nothing. -/
theorem mem_infos {i : Info} (hi : i ∈ infos) :
    i.id ∈ base.infos ∨ base = t ∧ ∃ c', c = some c' ∧ i ∈ c'.named := by
  have hmem {j : Info} (hj : t.infos[j.id]? = some j) : j.id ∈ t.infos :=
    ExtTreeMap.isSome_getElem?_iff_mem.1 (by rw [hj]; rfl)
  have hsearched (hread : ((Content.ofType .any).read t n.id).map (distinct (·.id)) = .ok infos) :
      i.id ∈ t.infos := by
    rcases (Content.of_mem_distinct ht hread i hi).2 with hnamed | hstored
    · cases hnamed
    · exact hmem hstored
  obtain ⟨c', hsupplies, hinfos⟩ := h.content
  cases hsupplies with
  | given =>
    exact (Content.of_mem_distinct ht hinfos i hi).2.symm.imp hmem fun hnamed =>
      ⟨rfl, c', rfl, hnamed⟩
  | plain => exact .inl (hsearched hinfos)
  | replicator => exact .inl (hsearched hinfos)
  | @constantSource _ _ j hfree horigin _ _ =>
    obtain ⟨xs, hxs, rfl⟩ := exists_of_map_distinct hinfos
    rw [Content.read, if_pos horigin] at hxs
    cases hxs
    rw [List.mem_singleton.1 ((distinct_sublist _ _).mem hi)]
    exact .inl ExtTreeMap.mem_insert_self

end Plans

section Plan

variable {n : Node} {b : Behavior} (hb : b.Provided) {tx : Transaction} {mint : Mint}
  (hkeyed : tx.view.Keyed) (hclosed : tx.view.Closed)
include hb hkeyed hclosed

/-- A `plan` that succeeds has found infos and nodes, and pairs them. -/
theorem plans_of_plan {c : Option Content} {r : Option Recipients}
    {l : List (Info × Node)} {scene : Scene} (h : n.plan b c r { tx, mint } = .ok l scene) :
    ∃ infos nodes, l = pairs infos nodes ∧ n.Plans b c r tx.view scene.tx.view infos nodes := by
  have hintact := Tables.intact hkeyed hclosed
  cases c with
  | some c =>
    obtain ⟨infos, s₁, hcontent, hrest⟩ := Op.of_bind_ok h
    obtain ⟨nodes, s₂, hrecipients, hpure⟩ := Op.of_bind_ok hrest
    obtain ⟨tx₁, hinfos, rfl⟩ := Op.of_access_ok hcontent
    rw [hb.planRecipients_eq] at hrecipients
    obtain ⟨tx₂, hnodes, rfl⟩ := Op.of_access_ok hrecipients
    cases hpure
    obtain ⟨⟨hinfos, hsome⟩, hnoted₁⟩ := read_of_someContent hintact hinfos
    rw [← hnoted₁.view_eq] at hintact
    obtain ⟨⟨hnodes, hsome'⟩, hnoted₂⟩ := read_of_someRecipients hintact hnodes
    rw [hnoted₁.view_eq] at hnodes
    dsimp only
    rw [hnoted₂.view_eq, hnoted₁.view_eq]
    exact ⟨infos, nodes, rfl, ⟨c, .given b c, hinfos⟩, hnodes, hsome, hsome'⟩
  | none =>
    obtain ⟨nodes, s₁, hrecipients, hrest⟩ := Op.of_bind_ok h
    obtain ⟨c, s₂, hhook, hrest⟩ := Op.of_bind_ok hrest
    obtain ⟨c, rfl, hsupplies⟩ := hb.supplies hhook
    obtain ⟨infos, s₃, hcontent, hpure⟩ := Op.of_bind_ok hrest
    obtain ⟨tx₃, hinfos, rfl⟩ := Op.of_access_ok hcontent
    rw [hb.planRecipients_eq] at hrecipients
    obtain ⟨tx₁, hnodes, rfl⟩ := Op.of_access_ok hrecipients
    cases hpure
    obtain ⟨⟨hnodes, hsome'⟩, hnoted₁⟩ := read_of_someRecipients hintact hnodes
    have hbecomes : tx₁.Becomes (fun r => r.delivers = false) s₂.tx :=
      (hb.asks.content n).of_ok hhook
    have hview₁ : tx₁.view = tx.view := hnoted₁.view_eq
    rw [← hview₁] at hkeyed hclosed
    obtain ⟨⟨hinfos, hsome⟩, hnoted₃⟩ := read_of_someContent
      (Tables.intact (hbecomes.keyed hkeyed) (hbecomes.closed hclosed)) hinfos
    dsimp only at hsupplies ⊢
    rw [hview₁] at hsupplies
    rw [hnoted₃.view_eq]
    exact ⟨infos, nodes, rfl, ⟨c, hsupplies, hinfos⟩, hnodes, hsome, hsome'⟩

/-- The nodes of a `plan` are stored. Its infos are stored, or they are named by the content that
was given, and then to plan has stored nothing. -/
theorem stored_of_plan {c : Option Content} {r : Option Recipients} {l : List (Info × Node)}
    {scene : Scene} (h : n.plan b c r { tx, mint } = .ok l scene) :
    ∀ p ∈ l, p.2.id ∈ scene.tx.view.nodes ∧ (p.1.id ∈ scene.tx.view.infos ∨
      scene.tx.view = tx.view ∧ ∃ c', c = some c' ∧ p.1 ∈ c'.named) := by
  have hintact := Tables.intact hkeyed hclosed
  obtain ⟨infos, nodes, rfl, hplans⟩ := plans_of_plan hb hkeyed hclosed h
  intro p hp
  obtain ⟨hi, hm⟩ := mem_pairs.1 hp
  exact ⟨hplans.mem_nodes hintact hm, hplans.mem_infos hintact hi⟩

end Plan

end Node

end Propagation
