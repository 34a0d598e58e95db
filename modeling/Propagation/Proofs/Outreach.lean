import Propagation.Proofs.Lineage
import Propagation.Proofs.Searching
import Propagation.Proofs.Sending

/-!
# Sending to all that can be reached

A node that sends to all nodes of some kind looks up the vectors alive that leave it, the earliest
first, and goes along them. If these lead to different nodes, each of which is chosen, then what it
sends goes to the nodes in the order of the vectors. Whether the nodes themselves are alive is not
asked.

## Main definitions

* `Tables.Emits`: the vectors that leave a node.
* `Node.Reaches`: what it is to send an info to some nodes.

## Main statements

* `Tables.Emits.foundAlive_eq`: what a search for live vectors finds.
* `Tables.map_id_reached`: the nodes across some vectors.
* `Node.exists_mapM_send`: transmissions are stored where their identifiers are unused.
* `Node.reaches_of_emits`: an info goes to the nodes to which the vectors lead.
-/

namespace Propagation

open Std (ExtTreeMap)

/-! ## Where the vectors lead -/

namespace Tables

/-- The stored vectors that leave node `n` are those in `vectors`. -/
def Emits (t : Tables) (n : NodeId) (vectors : List Vector) : Prop :=
  ∀ v, (t.vectors[v.id]? = some v ∧ v.origin = n) ↔ v ∈ vectors

variable {t : Tables} {n : NodeId} {vectors : List Vector}

/-- If `vectors` are alive, a search for live vectors finds them in their order. -/
theorem Emits.foundAlive_eq (h : t.Emits n vectors) (hindexed : t.Indexed)
    (halive : ∀ v ∈ vectors, v.isAlive)
    (hordered : vectors.Pairwise fun v w => v.chronological w = .lt) :
    t.foundAlive n = vectors := by
  have hfinds : t.Finds { origin := some n, status := some .alive } (t.foundAlive n) :=
    hindexed.finds_selectVectors _
  refine eq_of_pairwise_lt hfinds.ordered hordered fun v => ?_
  rw [hfinds.mem_iff, ← h v]
  refine and_congr_right fun hv => ⟨fun hfits => hfits.origin n rfl, fun horigin => ?_⟩
  have hstatus : v.status = .alive := of_decide_eq_true (halive v ((h v).1 ⟨hv, horigin⟩))
  constructor
  · rintro _ ⟨⟩
    exact horigin
  · nofun
  · rintro _ ⟨⟩
    exact hstatus
  · nofun

/-- If `vectors` lead to different nodes, all of which are stored and chosen by `f`, these are
reached in the order of the vectors. -/
theorem map_id_reached (hkeyed : t.Keyed) {f : NodeFilter}
    (hnodes : ∀ v ∈ vectors, ∃ m, t.nodes[v.destination]? = some m ∧ f.matches m)
    (hnodup : (vectors.map (·.destination)).Nodup) :
    (t.reached vectors f).map (·.id) = vectors.map (·.destination) := by
  have hacross : (vectors.filterMap fun v => t.nodes[v.destination]?).map (·.id) =
      vectors.map (·.destination) := by
    clear hnodup
    induction vectors with
    | nil => rfl
    | cons v vectors ih =>
      obtain ⟨⟨m, hm, -⟩, hrest⟩ := List.forall_mem_cons.1 hnodes
      rw [List.filterMap_cons_some (f := fun v : Vector => t.nodes[v.destination]?) hm,
        List.map_cons, List.map_cons, ih hrest, hkeyed.node_id hm]
  have hchosen : ∀ m ∈ vectors.filterMap fun v => t.nodes[v.destination]?, f.matches m := by
    intro m hm
    obtain ⟨v, hv, hlookup⟩ := List.mem_filterMap.1 hm
    obtain ⟨m', hm', hmatches⟩ := hnodes v hv
    cases hlookup.symm.trans hm'
    exact hmatches
  rw [reached, distinct_of_nodup (hacross.symm ▸ hnodup), List.filter_eq_self.2 hchosen, hacross]

/-- An info `i` of the node's own that is named goes to all nodes that are reached, if there are
any. -/
theorem planned_info {i : Info} (hi : i.origin = n) (f : NodeFilter) :
    t.planned n (.info i) (.ofType f) = (nonempty (.nobodyToReach n) (t.reached (t.live n) f)).map
      fun nodes => nodes.map fun m => (i, m) := by
  have hnodup : ((t.reached (t.live n) f).map (·.id)).Nodup :=
    (nodup_map_distinct _ _).sublist (List.filter_sublist.map _)
  have hrun : t.planned n (.info i) (.ofType f) =
      (nonempty (.nobodyToReach n) (distinct (·.id) (t.reached (t.live n) f))).bind
        fun nodes => .ok ([i].flatMap fun i => nodes.map fun m => (i, m)) := by
    rw [planned, Content.read, if_pos hi]
    rfl
  rw [hrun, distinct_of_nodup hnodup]
  cases nonempty (.nobodyToReach n) (t.reached (t.live n) f) with
  | error e => rfl
  | ok nodes => exact congrArg Except.ok (List.flatMap_singleton _ i)

end Tables

/-! ## Storing the transmissions -/

namespace Node

section Send

variable {tx : Transaction} {mint : Mint} (hmode : tx.mode = .readWrite)
include hmode

/-- A transmission of the pair `p`, whose info and node are there, is stored if the identifier is
free. -/
theorem send_ok {p : Info × Node} (hinfo : tx.view.has (.info p.1.id))
    (hnode : tx.view.has (.node p.2.id))
    (hfree : tx.view.has (.transmission (Transmission.fresh p.1.id p.2.id mint).1.id) = false) :
    send p { tx, mint } = .ok (Transmission.fresh p.1.id p.2.id mint).1
      { tx := tx.store (.transmission (Transmission.fresh p.1.id p.2.id mint).1)
        mint := mint.spend .transmission } := by
  have haccept : (Record.transmission (Transmission.fresh p.1.id p.2.id mint).1).accept tx.view =
      .ok () :=
    Record.accept_of_free hfree
      (List.forall_mem_cons.2 ⟨hinfo, List.forall_mem_singleton.2 hnode⟩)
  rw [send_apply, haccept, hmode]
  rfl

omit hmode in
/-- To `send` takes a time and an identifier, whether or not it succeeds. -/
theorem mint_send (p : Info × Node) (s : Scene) :
    (final (send p s)).mint = s.mint.spend .transmission := by
  rw [send, Op.bind_of_ok (Op.minting_apply _ _)]
  exact (congrArg Scene.mint (Op.final_map _ _ _)).trans (congrArg Scene.mint (Op.final_access _ _))

/-- To send pairs one after the other succeeds if all of these are there and no transmission has an
identifier that is drawn until `last`. -/
theorem exists_mapM_send {l : List (Info × Node)}
    (hl : ∀ p ∈ l, tx.view.has (.info p.1.id) ∧ tx.view.has (.node p.2.id))
    {last : IdSource} (hunused : tx.view.Unused .transmission mint.ids last)
    (hlast : (final (l.mapM send { tx, mint })).mint.ids.given <+: last.given) :
    ∃ created scene, l.mapM send { tx, mint } = .ok created scene := by
  induction l generalizing tx mint with
  | nil => exact ⟨[], _, rfl⟩
  | cons p l ih =>
    obtain ⟨⟨hinfo, hnode⟩, hrest⟩ := List.forall_mem_cons.1 hl
    let m := (Transmission.fresh p.1.id p.2.id mint).1
    have hgiven : (mint.spend .transmission).ids.given = mint.ids.given ++ [m.id.number] :=
      IdSource.given_next .transmission mint.ids
    have hlater (m : Transmission) : Advances (l.mapM send >>= fun ms => (pure (m :: ms) : Op _)) :=
      (Curates.bind (.mapM (@curates_send fun _ => False) l) fun _ => .pure _).advances
    rw [List.mapM_cons] at hlast ⊢
    have hspent : (mint.spend .transmission).ids.given <+: last.given := by
      have hfirst : (final (send p { tx, mint })).mint.ids.given <+: _ :=
        (Advances.precedes_bind (send p) hlater { tx, mint }).given
      rw [mint_send] at hfirst
      exact hfirst.trans hlast
    have hfree : tx.view.has (.transmission m.id) = false :=
      hunused.free (k := .transmission m.id) hgiven hspent (.head _)
    have hsend := send_ok hmode hinfo hnode hfree
    rw [Op.bind_of_ok hsend] at hlast ⊢
    rw [Op.final_map] at hlast
    have hstored : (tx.store (.transmission m)).view.Unused .transmission
        (mint.spend .transmission).ids last := hunused.put hgiven hspent
    have hthere : ∀ q ∈ l, (tx.store (.transmission m)).view.has (.info q.1.id) ∧
        (tx.store (.transmission m)).view.has (.node q.2.id) := fun q hq =>
      ⟨Tables.has_put_of_has (hrest q hq).1 _, Tables.has_put_of_has (hrest q hq).2 _⟩
    obtain ⟨created, scene, hrun⟩ :=
      @ih (tx.store (.transmission m)) (mint.spend .transmission) hmode hthere hstored hlast
    exact ⟨m :: created, scene, Op.bind_of_ok hrun⟩

end Send

/-! ## Reaching all -/

/-- Node `n` sends the info `i` to `nodes`, in this order: for each of them there is a transmission
that is pending, and nothing else has been stored. If there are none of them, this is why sending
fails. -/
structure Reaches (n : Node) (b : Behavior) (i : Info) (r : Option Recipients)
    (nodes : List NodeId) (s : Scene) : Prop where
  nobody : nodes = [] → ∃ tx, s.tx.Noted tx ∧
    n.transmit b (some (.info i)) r s = .error (.nobodyToReach n.id) { s with tx }
  all : nodes ≠ [] → ∃ created s', n.transmit b (some (.info i)) r s = .ok created s' ∧
    created.map (fun m => (m.info, m.destination)) = nodes.map (fun j => (i.id, j)) ∧
    (∀ m ∈ created, m.isPending) ∧ s.tx.view.Adds created s'.tx.view

/-- Where nobody is named, the default of `Behavior.plain` is to send to all that can be reached. -/
theorem planRecipients_of_default {b : Behavior} (hb : b.recipients = Behavior.plain.recipients)
    (n : Node) : n.planRecipients b none = liftM (n.someRecipients (.ofType .any)) := by
  rw [planRecipients, hb]
  rfl

/-- If it is clear that `r'` is whom to send to, the plan is the one in which `r'` is named. -/
theorem plan_of_planRecipients {n : Node} {b : Behavior} {r : Option Recipients} {r' : Recipients}
    (h : n.planRecipients b r = liftM (n.someRecipients r')) (c : Content) :
    n.plan b (some c) r = n.plan b (some c) (some r') := by
  rw [plan, h]
  rfl

section Reaches

variable {n : Node} {b : Behavior} {i : Info} {r : Option Recipients} {f : NodeFilter}
  {tx : Transaction} {mint : Mint} (hkeyed : tx.view.Keyed) (hclosed : tx.view.Closed)
  (hindexed : tx.view.Indexed)
  (hrecipients : n.planRecipients b r = liftM (n.someRecipients (.ofType f)))
  (hi : i.origin = n.id) {vectors : List Vector} (hemits : tx.view.Emits n.id vectors)
  (halive : ∀ v ∈ vectors, v.isAlive)
  (hordered : vectors.Pairwise fun v w => v.chronological w = .lt)
  (hnodup : (vectors.map (·.destination)).Nodup)
  (hchosen : ∀ v ∈ vectors, ∀ m, tx.view.nodes[v.destination]? = some m → f.matches m)
include hkeyed hclosed hindexed hrecipients hi hemits halive hordered hnodup hchosen

/-- The plan is to send the info `i` to the nodes to which `vectors` lead. -/
theorem exists_plan_info : ∃ tx' nodes, tx.Noted tx' ∧
    nodes.map (·.id) = vectors.map (·.destination) ∧
    (nodes = [] → n.plan b (some (.info i)) r { tx, mint } =
      .error (.nobodyToReach n.id) { tx := tx', mint }) ∧
    (nodes ≠ [] → n.plan b (some (.info i)) r { tx, mint } =
      .ok (nodes.map fun m => (i, m)) { tx := tx', mint }) := by
  have hintact := Tables.intact hkeyed hclosed
  have hlive := Tables.foundAlive_eq_live hintact hindexed.linked n.id
  have hnodes : ∀ v ∈ vectors, ∃ m, tx.view.nodes[v.destination]? = some m ∧ f.matches m := by
    intro v hv
    have hmem := (hintact.vector v.id v ((hemits v).2 hv).1).2.2
    obtain ⟨m, hm⟩ := Option.isSome_iff_exists.1 (ExtTreeMap.isSome_getElem?_iff_mem.2 hmem)
    exact ⟨m, hm, hchosen v hv m hm⟩
  have hreached := Tables.map_id_reached hkeyed hnodes hnodup
  have hplanned := (n.answers_plan hintact (.info i) (.ofType f) rfl hlive).op mint
  rw [← plan_named n b, ← plan_of_planRecipients hrecipients, Tables.planned_info hi f, ← hlive,
    hemits.foundAlive_eq hindexed halive hordered] at hplanned
  obtain ⟨houtcome, tx', hnoted, hfinal⟩ := hplanned
  refine ⟨tx', _, hnoted, hreached, fun hnone => ?_, fun hsome => ?_⟩
  · rw [hnone] at houtcome
    rw [Op.eq_error_of_outcome houtcome, hfinal]
  · obtain ⟨m, others, hcons⟩ := List.exists_cons_of_ne_nil hsome
    rw [hcons] at houtcome
    rw [Op.eq_ok_of_outcome houtcome, hfinal, hcons]

/-- Node `n` sends an info `i` of its own to the nodes to which `vectors` lead, those alive that
leave it, in a transaction that may write and where no transmission has an identifier that is drawn.
These nodes are different ones, and all of them are chosen by `f`. -/
theorem reaches_of_emits (hmode : tx.mode = .readWrite) (hinfo : tx.view.has (.info i.id))
    (hunused : tx.view.Unused .transmission mint.ids
      (final (n.transmit b (some (.info i)) r { tx, mint })).mint.ids) :
    n.Reaches b i r (vectors.map (·.destination)) { tx, mint } := by
  obtain ⟨tx', nodes, hnoted, hids, herror, hok⟩ := exists_plan_info hkeyed hclosed hindexed
    hrecipients hi hemits halive hordered hnodup hchosen
  have hempty : vectors.map (·.destination) = [] ↔ nodes = [] := by
    rw [← hids, List.map_eq_nil_iff]
  refine ⟨fun hnone => ?_, fun hsome => ?_⟩
  · exact ⟨tx', hnoted, Op.bind_of_error (herror (hempty.1 hnone))⟩
  · have hrun : n.transmit b (some (.info i)) r { tx, mint } =
        (nodes.map fun m => (i, m)).mapM send { tx := tx', mint } :=
      Op.bind_of_ok (hok (mt hempty.2 hsome))
    have hview : tx'.view = tx.view := hnoted.view_eq
    have hmode' : tx'.mode = .readWrite := (congrArg Transaction.mode hnoted).trans hmode
    have hthere : ∀ p ∈ nodes.map fun m => (i, m),
        tx'.view.has (.info p.1.id) ∧ tx'.view.has (.node p.2.id) := by
      refine List.forall_mem_map.2 fun m hm => ?_
      have hmem : m.id ∈ vectors.map (·.destination) := hids ▸ List.mem_map_of_mem hm
      obtain ⟨v, hv, hdestination⟩ := List.mem_map.1 hmem
      have hnode := ((Tables.intact hkeyed hclosed).vector v.id v ((hemits v).2 hv).1).2.2
      rw [hview]
      exact ⟨hinfo, Tables.has_node.2 (hdestination ▸ hnode)⟩
    rw [hrun, ← hview] at hunused
    rw [hrun]
    obtain ⟨created, s', hsend⟩ := exists_mapM_send hmode' hthere hunused List.prefix_rfl
    have hsent := mapM_send_dispatches hsend
    refine ⟨created, s', hsend, ?_, hsent.pending, hview ▸ hsent.adds⟩
    rw [hsent.ends, ← hids, List.map_map, List.map_map]
    rfl

end Reaches

end Node

end Propagation
