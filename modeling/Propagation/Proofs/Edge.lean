import Propagation.Proofs.Chronicle
import Propagation.Proofs.Finality
import Propagation.Proofs.Sending

/-!
# The edge of a transmission

A transmission does not say which node it comes from, nor along which vector. Both are looked up
when they are asked for: the node is the origin of its info, and the vector is one that leads from
there to the destination. Yet the answer never changes and never fails. When a node sends, the info
is its own and a live vector leads to the destination; and from then on, whoever sees the
transmission also sees the info, whose origin is fixed, and the vector, whose ends are fixed, be it
alive or dead.

## Main definitions

* `Tables.LiveEdge`: a vector that is alive leads from one node to another.
* `Tables.KeepsEdge`: what is said of a transmission, from any copy of it, is the edge along which
  it was sent.
* `Node.Resolves`: the contents that a node makes out when it sends.
* `Node.Posts`: how a transmission comes about.
* `Chronicle.Copied`: a copy of a record that was stored once, however old.

## Main statements

* `Tables.keepsEdge`: the rows that it takes to tell the edge.
* `Behavior.Provided.leaves_vectors`: the behaviors that come with the store end no vectors.
* `Node.posts_of_transmit`: what can be said of the transmissions of a sending that succeeds.
* `Chronicle.Run.keepsEdge_of_transmit`: every transmission keeps its edge.
-/

namespace Propagation

open Std (ExtTreeMap)

/-! ## Edges -/

namespace Transmission

/-- Where the vector `v` is among those that were `found`, one of them is chosen. -/
theorem exists_chosen {found : List Vector} {v : Vector} (h : v ∈ found) :
    ∃ u ∈ found, (found.find? (·.isAlive)).or found.head? = some u := by
  cases hlive : found.find? (·.isAlive) with
  | some u => exact ⟨u, List.mem_of_find?_eq_some hlive, rfl⟩
  | none =>
    cases found with
    | nil => cases h
    | cons u rest => exact ⟨u, .head rest, rfl⟩

/-- The vector of the transmission `m` is chosen among those between the origin of its info and its
destination, if there are any. -/
theorem answers_vector {m : Transmission} {tx : Transaction} {i : Info}
    (hi : tx.view.infos[m.info]? = some i) {found : List Vector}
    (hfound : tx.view.selectVectors { origin := some i.origin, destination := some m.destination } =
      found) :
    m.vector.Answers tx (((found.find? (·.isAlive)).or found.head?).elim
      (.error (.noVector i.origin m.destination)) .ok) := by
  subst hfound
  refine ((Access.answers_require_of_some hi).map Info.origin).bind_of_ok fun tx' hnoted => ?_
  refine (Access.answers_vectors _ tx').bind_of_ok fun tx'' _ => ?_
  rw [hnoted.view_eq]
  split <;> rename_i hv <;> rw [hv]
  · exact .pure _ tx''
  · exact .throw _ tx''

end Transmission

namespace Tables

/-- A vector that is alive leads from node `n` to node `m`. -/
def LiveEdge (t : Tables) (n m : NodeId) : Prop :=
  ∃ (i : VectorId) (v : Vector), t.vectors[i]? = some v ∧ v.isAlive ∧ v.origin = n ∧
    v.destination = m

theorem liveEdge_of_foundAlive {t : Tables} {n m : NodeId}
    (h : (t.foundAlive n).any (·.destination = m)) : t.LiveEdge n m := by
  obtain ⟨v, hv, hdestination⟩ := List.any_eq_true.1 h
  obtain ⟨i, hi⟩ := stored_of_mem_selectVectors hv
  rw [foundAlive, selectVectors, mem_sort, List.mem_filter] at hv
  have hmatches := hv.2
  simp only [VectorQuery.matches, Option.all_some, Option.all_none, Bool.and_true, Bool.and_eq_true,
    decide_eq_true_eq] at hmatches
  exact ⟨i, v, hi, decide_eq_true hmatches.2, hmatches.1, of_decide_eq_true hdestination⟩

/-- What is stored of a transmission that `n` sent is a later version of it, and from whichever
copy of the transmission one asks, it comes from `n` along a vector to its destination. -/
structure KeepsEdge (t : Tables) (n : NodeId) (m : Transmission) : Prop where
  stored : ∀ m', t.transmissions[m.id]? = some m' → m.Le m'
  origin : ∀ m', m.Le m' → ∀ tx : Transaction, tx.view = t → outcome (m'.origin tx) = .ok n
  vector : ∀ m', m.Le m' → ∀ tx : Transaction, tx.view = t →
    ∃ v, outcome (m'.vector tx) = .ok v ∧ v.origin = n ∧ v.destination = m.destination

/-- The edge of the transmission `m` is told by its info and by any vector between the two nodes,
where the indexes are in step. -/
theorem keepsEdge {t : Tables} (ht : t.Intact) (hlinked : t.Linked) {m : Transmission} {i : Info}
    (hi : t.infos[m.info]? = some i) {j : VectorId} {v : Vector} (hv : t.vectors[j]? = some v)
    (horigin : v.origin = i.origin) (hdestination : v.destination = m.destination)
    (hm : ∀ m', t.transmissions[m.id]? = some m' → m.Le m') : t.KeepsEdge i.origin m where
  stored := hm
  origin m' hle tx htx := by
    rw [← hle.info, ← htx] at hi
    exact ((Access.answers_require_of_some hi).map Info.origin).outcome
  vector m' hle tx htx := by
    subst htx
    rw [← hle.info] at hi
    rw [← hle.destination] at hdestination ⊢
    have hfound := selectVectors_eq hlinked (fun i v hv => (ht.vector i v hv).1)
      { origin := some i.origin, destination := some m'.destination }
    generalize hl : sort _ _ = found at hfound
    have hmem (u : Vector) : u ∈ found ↔ u ∈ rows tx.view.vectors ∧ u.origin = i.origin ∧
        u.destination = m'.destination := by
      rw [← hl, mem_sort, List.mem_filter]
      simp [VectorQuery.matches]
    obtain ⟨u, hu, hchosen⟩ := Transmission.exists_chosen
      ((hmem v).2 ⟨mem_rows.2 ⟨j, hv⟩, horigin, hdestination⟩)
    obtain ⟨-, horigin', hdestination'⟩ := (hmem u).1 hu
    have hanswers := Transmission.answers_vector hi hfound
    rw [hchosen] at hanswers
    exact ⟨u, hanswers.outcome, horigin', hdestination'⟩

end Tables

/-! ## What requests leave alone -/

/-- The request puts no other version in the place of a record of kind `e`. -/
def Request.Leaves (e : Entity) (r : Request) : Prop :=
  ∀ s : Revision, r = .revise s → s.record.key.entity ≠ e

theorem Request.leaves_insert (e : Entity) (r : Record) : (insert r).Leaves e := by
  rintro s hs
  cases hs

theorem Request.leaves_of_stored?_none {e : Entity} {r : Request} (h : r.stored? = none) :
    r.Leaves e := by
  rintro s rfl
  cases h

namespace Transaction

variable {tx tx' : Transaction} {e : Entity}

theorem Becomes.find?_of_leaves (h : tx.Becomes (Request.Leaves e) tx') {k : Key}
    (hk : k.entity = e) {r : Record} (hr : tx.view.find? k = some r) :
    tx'.view.find? k = some r := by
  apply h.view_induction (Q := fun t => t.find? k = some r)
  · intro q t s hq hw ht
    obtain ⟨hs, hacc, -⟩ := Request.writes_eq_some.1 hw
    have hne : s.key ≠ k := by
      rintro rfl
      cases q with
      | insert _ =>
        cases hs
        rw [Record.find?_of_accept hacc] at ht
        cases ht
      | revise _ =>
        cases hs
        exact hq _ rfl hk
      | _ => cases hs
    rw [Tables.find?_put, if_neg hne]
    exact ht
  · exact hr

/-- Requests that leave the vectors alone keep a `LiveEdge`. -/
theorem Becomes.liveEdge (h : tx.Becomes (Request.Leaves .vector) tx') {n m : NodeId}
    (hedge : tx.view.LiveEdge n m) : tx'.view.LiveEdge n m := by
  obtain ⟨i, v, hv, hrest⟩ := hedge
  refine ⟨i, v, Tables.find?_vector.1 (h.find?_of_leaves rfl ?_), hrest⟩
  exact Tables.find?_vector.2 hv

/-- The record `r` is stored at some time on the way from `tx` to `tx'`. -/
def Passes (tx tx' : Transaction) (r : Record) : Prop :=
  ∃ u, tx.Becomes AnyRequest u ∧ u.Becomes AnyRequest tx' ∧ u.view.find? r.key = some r

end Transaction

/-- None of the behaviors that come with the store ends a vector when it is asked for content. -/
theorem Behavior.Provided.leaves_vectors {b : Behavior} (hb : b.Provided) (n : Node) :
    Propagation.Asks (Request.Leaves .vector) (b.content n) := by
  cases hb with
  | plain => exact .pure _
  | replicator => exact .pure _
  | constantSource infoType contents =>
    refine .bind (.bind (.minting _) fun i => ?_) fun _ => .pure _
    exact .access (.bind (.insert (Request.leaves_insert _ _)) fun _ => .pure _)

/-! ## How a transmission comes about -/

namespace Node

/-- The contents that node `n` makes out when it sends: the ones that it is given, or else those
that `b` answers once the recipients are found. -/
inductive Resolves (n : Node) (b : Behavior) (r : Option Recipients) (s : Scene) :
    Option Content → Content → Prop
  | given (c : Content) : Resolves n b r s (some c) c
  | asked {nodes : List Node} {c : Content} {s₁ s₂ : Scene}
    (hrecipients : n.planRecipients b r s = .ok nodes s₁)
    (hcontent : b.content n s₁ = .ok (some c) s₂) : Resolves n b r s none c

/-- To send an info to a node was found to be in order: the info is the node's own, named or
stored, and a live vector led to the other node, which it still does if the behavior, where it was
asked for the content, left the vectors alone. -/
structure Proposes (n : Node) (b : Behavior) (c : Option Content) (r : Option Recipients)
    (s s' : Scene) (i : Info) (d : NodeId) : Prop where
  origin : i.origin = n.id
  source : (∃ c', n.Resolves b r s c c' ∧ i ∈ c'.named) ∨ s.tx.Passes s'.tx (.info i)
  found : ∃ u, s.tx.Becomes AnyRequest u ∧ u.Becomes AnyRequest s'.tx ∧ u.view.LiveEdge n.id d
  live : c.isSome ∨ Asks (Request.Leaves .vector) (b.content n) → s'.tx.view.LiveEdge n.id d

variable {n : Node} {b : Behavior} {c : Option Content} {r : Option Recipients} {s s' s'' : Scene}

/-- Requests that leave the vectors alone, from `s'` to a later scene, change nothing about what
node `n` proposes. -/
theorem Proposes.extend {i : Info} {d : NodeId} (h : n.Proposes b c r s s' i d)
    (hleaves : s'.tx.Becomes (Request.Leaves .vector) s''.tx) : n.Proposes b c r s s'' i d where
  origin := h.origin
  source := by
    have hany : s'.tx.Becomes AnyRequest s''.tx := hleaves.mono fun _ _ => trivial
    exact h.source.imp_right fun ⟨u, hu, hu', hi⟩ => ⟨u, hu, hu'.trans hany, hi⟩
  found := by
    obtain ⟨u, hu, hu', hedge⟩ := h.found
    exact ⟨u, hu, hu'.trans (hleaves.mono fun _ _ => trivial), hedge⟩
  live hspared := hleaves.liveEdge (h.live hspared)

/-! ### Plans -/

section Plan

variable (hb : b.Asks AnyRequest) (hkeyed : s.tx.view.Keyed) (hclosed : s.tx.view.Closed)
include hkeyed hclosed

/-- The `infos` that are found are the node's own, named or stored, and to find them is to look. -/
theorem of_liftM_someContent {c : Content} {infos : List Info}
    (h : (liftM (n.someContent c) : Op (List Info)) s = .ok infos s') :
    s.tx.Becomes (fun q => q.stored? = none) s'.tx ∧ ∀ i ∈ infos, i.origin = n.id ∧
      (i ∈ c.named ∨ s.tx.view.find? (.info i.id) = some (.info i)) := by
  refine ⟨(Asks.access (n.asks_someContent (fun _ hq => hq) c)).of_ok h, fun i hi => ?_⟩
  obtain ⟨tx, hrun, rfl⟩ := Op.of_access_ok h
  rw [Tables.find?_info]
  exact (of_someContent (Tables.intact hkeyed hclosed) hrun).2 i hi

/-- A live vector leads to each of the `nodes` that are found. -/
theorem liveEdge_of_liftM_someRecipients {r : Recipients} {nodes : List Node}
    (h : (liftM (n.someRecipients r) : Op (List Node)) s = .ok nodes s') :
    ∀ m ∈ nodes, s'.tx.view.LiveEdge n.id m.id := by
  obtain ⟨tx, hrun, rfl⟩ := Op.of_access_ok h
  obtain ⟨hview, hany⟩ := of_someRecipients (Tables.intact hkeyed hclosed) hrun
  intro m hm
  change tx.view.LiveEdge n.id m.id
  rw [hview]
  exact Tables.liveEdge_of_foundAlive (hany m hm)

include hb

theorem of_planRecipients {nodes : List Node} (h : n.planRecipients b r s = .ok nodes s') :
    s.tx.Becomes AnyRequest s'.tx ∧ ∀ m ∈ nodes, s'.tx.view.LiveEdge n.id m.id := by
  refine ⟨(n.asks_planRecipients (fun _ _ => trivial) hb r).of_ok h, ?_⟩
  cases r with
  | some r => exact liveEdge_of_liftM_someRecipients hkeyed hclosed h
  | none =>
    obtain ⟨r, s₁, hhook, hrest⟩ := Op.of_bind_ok h
    have hbecomes : s.tx.Becomes AnyRequest s₁.tx := (hb.recipients n).of_ok hhook
    cases r with
    | some r =>
      exact liveEdge_of_liftM_someRecipients (hbecomes.keyed hkeyed) (hbecomes.closed hclosed) hrest
    | none => cases hrest

/-- Node `n` proposes the pairs of its `plan`. -/
theorem proposes_of_plan {l : List (Info × Node)} (h : n.plan b c r s = .ok l s') :
    ∀ p ∈ l, n.Proposes b c r s s' p.1 p.2.id := by
  intro p hp
  cases c with
  | some c =>
    obtain ⟨infos, s₁, hcontent, hrest⟩ := Op.of_bind_ok h
    obtain ⟨nodes, s₂, hrecipients, hpure⟩ := Op.of_bind_ok hrest
    cases hpure
    obtain ⟨hi, hm⟩ := mem_pairs.1 hp
    obtain ⟨hread, hinfos⟩ := of_liftM_someContent hkeyed hclosed hcontent
    obtain ⟨horigin, hsource⟩ := hinfos _ hi
    obtain ⟨hbecomes, hedge⟩ := of_planRecipients hb (hread.keyed hkeyed) (hread.closed hclosed)
      hrecipients
    have hall := (hread.mono fun _ _ => trivial).trans hbecomes
    refine ⟨horigin, ?_, ⟨s'.tx, hall, .refl _, hedge _ hm⟩, fun _ => hedge _ hm⟩
    exact hsource.imp (fun hnamed => ⟨c, .given c, hnamed⟩) fun hstored =>
      ⟨s.tx, .refl _, hall, hstored⟩
  | none =>
    obtain ⟨nodes, s₁, hrecipients, hrest⟩ := Op.of_bind_ok h
    obtain ⟨c, s₂, hhook, hrest⟩ := Op.of_bind_ok hrest
    cases c with
    | none => cases hrest
    | some c =>
      obtain ⟨infos, s₃, hcontent, hpure⟩ := Op.of_bind_ok hrest
      cases hpure
      obtain ⟨hi, hm⟩ := mem_pairs.1 hp
      obtain ⟨hbecomes, hedge⟩ := of_planRecipients hb hkeyed hclosed hrecipients
      have hboth : s.tx.Becomes AnyRequest s₂.tx := hbecomes.trans ((hb.content n).of_ok hhook)
      obtain ⟨hread, hinfos⟩ := of_liftM_someContent (hboth.keyed hkeyed) (hboth.closed hclosed)
        hcontent
      obtain ⟨horigin, hsource⟩ := hinfos _ hi
      have hrest : s₁.tx.Becomes AnyRequest s'.tx :=
        ((hb.content n).of_ok hhook).trans (hread.mono fun _ _ => trivial)
      refine ⟨horigin, ?_, ⟨s₁.tx, hbecomes, hrest, hedge _ hm⟩, fun hspared => ?_⟩
      · exact hsource.imp (fun hnamed => ⟨c, .asked hrecipients hhook, hnamed⟩) fun hstored =>
          ⟨s₂.tx, hboth, hread.mono fun _ _ => trivial, hstored⟩
      · have hleft : s₁.tx.Becomes (Request.Leaves .vector) s₂.tx :=
          (hspared.resolve_left nofun).of_ok hhook
        have hleaves : s₂.tx.Becomes (Request.Leaves .vector) s'.tx :=
          hread.mono fun _ => Request.leaves_of_stored?_none
        exact hleaves.liveEdge (hleft.liveEdge (hedge _ hm))

end Plan

/-! ### Sendings -/

/-- To `send` a transmission replaces no record of kind `e`. -/
theorem leaves_send (e : Entity) (p : Info × Node) : Asks (Request.Leaves e) (send p) :=
  asks_send (fun m _ => Request.leaves_insert e (.transmission m)) p

/-- Every transmission in `ms` is one of a pair, has taken a free identifier, and is stored as it
was sent. -/
theorem mapM_send_ok (l : List (Info × Node)) {tx : Transaction} {mint : Mint}
    {ms : List Transmission} (h : l.mapM send { tx, mint } = .ok ms s') :
    ∀ m ∈ ms, (∃ p ∈ l, m.info = p.1.id ∧ m.destination = p.2.id) ∧
      tx.view.has (.transmission m.id) = false ∧ s'.tx.view.transmissions[m.id]? = some m := by
  have hsent := mapM_send_dispatches h
  intro m hm
  have hends : (m.info, m.destination) ∈ l.map fun p => (p.1.id, p.2.id) := by
    rw [← hsent.ends]
    exact List.mem_map_of_mem hm
  obtain ⟨p, hp, hpair⟩ := List.mem_map.1 hends
  obtain ⟨hinfo, hdestination⟩ := Prod.mk.inj hpair
  refine ⟨⟨p, hp, hinfo.symm, hdestination.symm⟩, ?_, (hsent.adds.lookup _ m).2 (.inr ⟨hm, rfl⟩)⟩
  simp [Tables.has, Tables.find?, hsent.adds.free m hm]

/-- How a transmission `m` came about that node `n` sent: node `n` proposed it, it has taken a free
identifier, and it is stored. -/
structure Posts (n : Node) (b : Behavior) (c : Option Content) (r : Option Recipients)
    (s s' : Scene) (m : Transmission) : Prop where
  proposed : ∃ i, i.id = m.info ∧ n.Proposes b c r s s' i m.destination
  free : s.tx.view.has (.transmission m.id) = false
  stored : s'.tx.view.transmissions[m.id]? = some m

/-- All transmissions of a `transmit` that succeeds have come about as `Posts` says. -/
theorem posts_of_transmit (hb : b.Asks AnyRequest) (hkeyed : s.tx.view.Keyed)
    (hclosed : s.tx.view.Closed) {ms : List Transmission} (h : n.transmit b c r s = .ok ms s') :
    ∀ m ∈ ms, n.Posts b c r s s' m := by
  intro m hm
  obtain ⟨l, s₁, hplan, hsend⟩ := Op.of_bind_ok h
  have hbecomes : s.tx.Becomes AnyRequest s₁.tx :=
    (n.asks_plan (fun _ _ => trivial) hb c r).of_ok hplan
  have hleaves : s₁.tx.Becomes (Request.Leaves .vector) s'.tx :=
    (Asks.mapM (leaves_send .vector) l).of_ok hsend
  obtain ⟨⟨p, hp, hinfo, hdestination⟩, hfree, hstored⟩ := mapM_send_ok l hsend m hm
  refine ⟨⟨p.1, hinfo.symm, ?_⟩, ?_, hstored⟩
  · rw [hdestination]
    exact (proposes_of_plan hb hkeyed hclosed hplan p hp).extend hleaves
  · rw [← Bool.not_eq_true] at hfree ⊢
    exact fun hhas => hfree (Tables.has_of_le hbecomes.le_view hhas)

end Node

/-! ## Every transmission keeps its edge -/

namespace Chronicle

variable {α : Type} {c c₁ : Chronicle α}

/-- The record `r` is a copy of a record that was stored at some time, as it was then. -/
def Copied (c : Chronicle α) (r : Record) : Prop :=
  ∃ d : Chronicle α, d.Run ∧ d.Leads c ∧ ∃ t, d.world.Offers t ∧ t.find? r.key = some r

/-- What is stored under the key of the copy `r` comes from the same record as `r`. -/
theorem Copied.akin {r r' : Record} (h : c.Copied r) {c' : Chronicle α} (hleads : c.Leads c')
    {t : Tables} (ht : c'.world.Offers t) (hr' : t.find? r.key = some r') : r.Akin r' := by
  obtain ⟨d, hrun, hd, u, hu, hr⟩ := h
  exact hrun.sound.akin (hd.trans hleads) hu ht hr hr'

section Transmit

variable {name : Nat} {s : Session α} {n : Node} {b : Behavior} {what : Option Content}
  {whom : Option Recipients} {remark : Except Error (List Transmission) → α → α} (h : c.Run)
  (hs : c.world.sessions name = some s)
  (huse : c.Uses name (n.transmit b what whom) remark c₁) {scene : Scene}
  (hfinal : final (n.transmit b what whom { tx := s.tx, mint := c.world.store.mint }) = scene)
  {m : Transmission}
  (hposts : n.Posts b what whom { tx := s.tx, mint := c.world.store.mint } scene m)
include h hs huse hfinal hposts

/-- Wherever a transmission `m` is found that was just sent, everything is found that the
transaction has in its view. -/
theorem Run.carries_of_posts {l : Key} (hl : scene.tx.view.has l) :
    c₁.Carries (.transmission m.id) l := by
  subst hfinal
  obtain ⟨made, hmade, heq⟩ := huse.made_eq hs
  have hhas := Option.isSome_of_mem (Tables.find?_transmission.2 hposts.stored)
  have hnew : .transmission m.id ∈ made.map Record.key := by
    refine ((hmade.has_iff _).1 hhas).resolve_left fun hold => ?_
    rw [hposts.free] at hold
    cases hold
  have hfresh := huse.fresh
  rw [heq, List.map_append] at hfresh
  refine ⟨?_, fun t ht hm => ?_⟩
  · rw [heq, List.map_append]
    exact List.mem_append_right _ hnew
  · rcases huse.offers_cases hs ht with ht | rfl
    · -- Nothing that could be looked at before has a key that is new.
      obtain ⟨r, hr⟩ := Option.isSome_iff_exists.1 hm
      obtain ⟨r₀, hr₀, hkey, -⟩ := h.sound.descends t ht _ r hr
      have hold : .transmission m.id ∈ c.made.map Record.key := List.mem_map.2 ⟨r₀, hr₀, hkey⟩
      exact absurd rfl ((List.nodup_append.1 hfresh).2.2 _ hold _ hnew)
    · exact hl

/-- The stored info of a transmission that was just sent has `n` as its origin, whichever copy of it
was named. -/
theorem Run.info_of_posts (hcopies : ∀ c',
      n.Resolves b whom { tx := s.tx, mint := c.world.store.mint } what c' → ∀ i ∈ c'.named,
        c.Copied (.info i) ∨ s.tx.Passes scene.tx (.info i)) :
    ∃ i, scene.tx.view.infos[m.info]? = some i ∧ i.origin = n.id := by
  subst hfinal
  have hstep : c.Step c₁ := .use huse
  have hoffers := huse.offers hs
  have hclosed := ((h.sound.step hstep).reachable).closed_offered hoffers
  obtain ⟨r, hr⟩ := Option.isSome_iff_exists.1
    (hclosed _ _ (Tables.find?_transmission.2 hposts.stored) (.info m.info) (.head _))
  obtain ⟨i, hi, rfl⟩ := Option.map_eq_some_iff.1 hr
  obtain ⟨copy, hid, hproposed⟩ := hposts.proposed
  rw [← hid] at hr
  have hakin : (Record.info copy).Akin (.info i) := by
    rcases hproposed.source.imp_left fun ⟨c', hc', hnamed⟩ => hcopies c' hc' copy hnamed with
      (hcopied | hpasses) | hpasses
    · exact hcopied.akin (.single hstep) hoffers hr
    all_goals
      obtain ⟨u, -, hu, hstored⟩ := hpasses
      obtain ⟨r', hr', hle⟩ := hu.le_view _ _ hstored
      rw [Record.key, hr] at hr'
      cases hr'
      exact ⟨_, .refl _, hle⟩
  exact ⟨i, hi, hakin.info.trans hproposed.origin⟩

/-- Wherever a transmission is found that was sent, in `c₁` or later, it keeps its edge. -/
theorem Run.keepsEdge_of_posts {i : Info} (hi : scene.tx.view.infos[m.info]? = some i)
    (horigin : i.origin = n.id) {c₂ : Chronicle α} (hleads : c₁.Leads c₂) {t : Tables}
    (ht : c₂.world.Offers t) (hm : t.has (.transmission m.id)) : t.KeepsEdge n.id m := by
  have hstep : c.Step c₁ := .use huse
  have hsound := h.sound.step hstep
  have hreachable := (hsound.leads hleads).reachable
  have hclosed := hreachable.closed_offered ht
  have hoffers : c₁.world.Offers scene.tx.view := hfinal ▸ huse.offers hs
  have hakin {k : Key} {r r' : Record} (hr : scene.tx.view.find? k = some r)
      (hr' : t.find? k = some r') : r.Akin r' := hsound.akin hleads hoffers ht hr hr'
  -- The transmission that is found is a later version of the one that was sent.
  have hle : ∀ m', t.transmissions[m.id]? = some m' → m.Le m' := fun m' hm' =>
    (hakin (Tables.find?_transmission.2 hposts.stored)
      (Tables.find?_transmission.2 hm')).transmission
  obtain ⟨r, hr⟩ := Option.isSome_iff_exists.1 hm
  obtain ⟨m', hm', rfl⟩ := Option.map_eq_some_iff.1 hr
  -- Its info is there, and has the same origin.
  obtain ⟨r, hr'⟩ := Option.isSome_iff_exists.1 (hclosed _ _ hr (.info m'.info) (.head _))
  rw [(hle m' hm').info] at hr'
  obtain ⟨i', hi', rfl⟩ := Option.map_eq_some_iff.1 hr'
  have horigin' : i'.origin = n.id := (hakin (Tables.find?_info.2 hi) hr').info.trans horigin
  -- The vector that was found alive is there as well, and has the same ends.
  obtain ⟨_, -, hproposed⟩ := hposts.proposed
  obtain ⟨u, -, hu, j, v, hv, -, ho, hd⟩ := hproposed.found
  obtain ⟨r, hr, hle'⟩ := hu.le_view _ _ (Tables.find?_vector.2 hv)
  obtain ⟨v₁, -, rfl⟩ := Option.map_eq_some_iff.1 hr
  have hcarries := h.carries_of_posts hs huse hfinal hposts (l := .vector j)
    (Option.isSome_of_mem hr)
  obtain ⟨r, hr'⟩ := Option.isSome_iff_exists.1 ((hleads.carries hsound hcarries).has t ht hm)
  obtain ⟨v₂, hv₂, rfl⟩ := Option.map_eq_some_iff.1 hr'
  obtain ⟨ho₂, hd₂⟩ := (hakin hr hr').vector
  rw [← horigin']
  refine Tables.keepsEdge (Tables.intact (hreachable.keyed_offered ht) hclosed)
    ((hsound.leads hleads).linked t ht) hi' hv₂ ?_ ?_ hle
  · rw [ho₂, hle'.origin, ho, horigin']
  · rw [hd₂, hle'.destination, hd]

end Transmit

/-- A transaction that is alone may make the `changes`, one after the other. -/
theorem Alone.changing {c : Chronicle Unit} (h : c.Alone 0) (changes : List Change) :
    ∃ made, c.Leads ⟨c.world.changing changes, made⟩ ∧
      Alone ⟨c.world.changing changes, made⟩ 0 := by
  induction changes generalizing c with
  | nil => exact ⟨c.made, Relation.ReflTransGen.refl, h⟩
  | cons change changes ih =>
    obtain ⟨made₁, huse, h₁⟩ := h.use change.asks fun _ note => note
    obtain ⟨made₂, hleads, h₂⟩ := ih h₁
    exact ⟨made₂, Leads.trans (.single (.use huse)) hleads, h₂⟩

/-- A node that is joined to another has an info in which nothing is written. -/
def farewell : World Unit :=
  ((World.init .still).begin 0 .readWrite .readCommitted ()).changing changes
where
  changes : List Change :=
    [.request (.insert (.node (.numbered 0))), .request (.insert (.node (.numbered 1))),
      .request (.insert (.vector (.numbered 3 0 1))), .request (.insert (.info (.numbered 5 0)))]

namespace farewell

/-- The info is written. -/
def written : World Unit := farewell.changing [.write (.numbered 5 0) "farewell"]

/-- The node sends the info, of which it still has the empty copy. -/
def send : Op (List Transmission) :=
  (Node.numbered 0).transmit .plain (some (.info (.numbered 5 0))) (some (.node (.numbered 1)))

def letter : Transmission := (Transmission.fresh ⟨5⟩ ⟨1⟩ .still).1

/-- Then the vector is ended, and all of this is committed. -/
def parted : World Unit :=
  ((written.use 0 send fun _ note => note).changing [.killVector (.numbered 3 0 1)]).commit 0

end farewell

end Chronicle

end Propagation
