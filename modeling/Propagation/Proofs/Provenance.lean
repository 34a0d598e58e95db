import Propagation.Proofs.Lineage
import Propagation.Proofs.Ownership

/-!
# Where infos come from

Nothing in the records says that copying makes a forest. A transformation names the info that was
copied and the copy, and the tables ask no more of it than that both are there. It follows from how
copies come about. The copy is drawn from the mint when the copying begins, so that it can not have
been copied before, nor be a copy twice; and the clock is one for all transactions, so that a copy
is younger than what was copied, wherever that was created.

So it is in every view and in what is committed, in every run in which infos and transformations
only come about by creating and copying, and in which whoever copies has seen the info as it was
stored at some time, in whichever transaction. The creation times are compared as texts, and these
are in the order of the instants until the year 9999.

## Main definitions

* `World.Curated`: the worlds that can come about in such a run, each with those before it.
* `Lineage.Records`: all that can be looked at, and could be before, agrees with what is known.
* `Transaction.Ancestry`: the infos that are met on the way back from copy to copy.
* `Transaction.Genealogy`: copying makes a forest.

## Main statements

* `Lineage.Records.use`, `Lineage.Records.commit`: what a step keeps.
* `World.Curated.lineage`: what a run keeps.
* `Lineage.exists_ancestry`: the way back from copy to copy comes to an end.
* `World.Curated.genealogy`: in such a run, copying makes a forest.
-/

namespace Propagation

open Std (ExtTreeMap)

/-! ## Courses -/

namespace World

variable {α β : Type}

/-- The info `i` was stored: it could be looked at in one of the worlds. -/
def Shown (course : List (World α)) (i : Info) : Prop :=
  ∃ w ∈ course, ∃ t, w.Offers t ∧ t.Shows (.info i)

/-- The worlds that can come about where infos are only created, written and copied, each with all
that came before it. What is copied was stored at some time. -/
inductive Curated : List (World α) → World α → Prop
  | init (mint : Mint) : Curated [] (init mint)
  | begin (name : Nat) (mode : TxMode) (isolation : Isolation) (note : α) {past : List (World α)}
    {w : World α} : Curated past w → Curated (w :: past) (w.begin name mode isolation note)
  | use (name : Nat) {β : Type} {op : Op β} {past : List (World α)} {w : World α}
    (hop : Curates (Shown (w :: past)) op) (remark : Except Error β → α → α) :
    Curated past w → Curated (w :: past) (w.use name op remark)
  | commit (name : Nat) {past : List (World α)} {w : World α} :
    Curated past w → Curated (w :: past) (w.commit name)
  | rollback (name : Nat) {past : List (World α)} {w : World α} :
    Curated past w → Curated (w :: past) (w.rollback name)
  | aside {f : Store → Store} (hf : ∀ s, (f s).committed = s.committed)
    (hmint : ∀ s : Store, s.mint.Precedes (f s).mint) {past : List (World α)} {w : World α} :
    Curated past w → Curated (w :: past) (w.aside f)

theorem Curated.reachable {past : List (World α)} {w : World α} (h : Curated past w) :
    w.Reachable := by
  induction h with
  | init mint => exact .init mint
  | begin name mode isolation note _ ih => exact ih.begin name mode isolation note
  | use name hop remark _ ih => exact ih.use name hop.asks remark
  | commit name _ ih => exact ih.commit name
  | rollback name _ ih => exact ih.rollback name
  | aside hf _ _ ih => exact ih.aside hf

end World

namespace Lineage

variable {α : Type} {l l' : Lineage} {past : List (World α)} {w w' : World α}

/-- All that can be looked at in `w`, and could be in `past`, agrees with what is known in `l`. -/
structure Records (l : Lineage) (past : List (World α)) (w : World α) : Prop where
  sound : l.Sound w.store.mint
  covers : ∀ v ∈ w :: past, ∀ t, v.Offers t → l.Covers t

namespace Records

theorem init (mint : Mint) : Records (fun _ => none) [] (World.init mint : World α) where
  sound := by
    refine ⟨fun i b hb => ?_, fun i b hb => ?_, fun i b t hb => ?_⟩ <;> cases hb
  covers v hv t ht r hr := by
    obtain rfl := List.mem_singleton.1 hv
    obtain ⟨k, hk⟩ := hr
    cases ht with
    | committed => cases k <;> simp [Tables.find?, World.init] at hk
    | view hs => cases hs

variable (h : l.Records past w)
include h

/-- An info `i` that was stored at some time is known. -/
theorem known {i : Info} (hi : World.Shown (w :: past) i) : ∃ b, l i.id = some b := by
  obtain ⟨v, hv, t, ht, hshows⟩ := hi
  obtain ⟨b, hb, -⟩ := h.covers v hv t ht _ hshows
  exact ⟨b, hb⟩

/-- What is known may grow with one step more. -/
theorem step (hl : l.Grows l') (hsound : l'.Sound w'.store.mint)
    (hcovers : ∀ t, w'.Offers t → w.Offers t ∨ l'.Covers t) : l'.Records (w :: past) w' where
  sound := hsound
  covers := by
    have hpast : ∀ v ∈ w :: past, ∀ t, v.Offers t → l'.Covers t :=
      fun v hv t ht => (h.covers v hv t ht).mono hl
    refine List.forall_mem_cons.2 ⟨fun t ht => ?_, hpast⟩
    exact (hcovers t ht).elim (hpast w (.head _) t) id

/-- A step leaves what is known as it is if the mint only goes on and nothing new is offered. -/
theorem quiet (hmint : w.store.mint.Precedes w'.store.mint)
    (hoffers : ∀ t, w'.Offers t → w.Offers t) : l.Records (w :: past) w' :=
  h.step (.refl l) (h.sound.mono hmint) fun t ht => .inl (hoffers t ht)

theorem commit (name : Nat) : l.Records (w :: past) (w.commit name) := by
  have hsound : l.Sound (w.commit name).store.mint := by
    rw [World.mint_commit]
    exact h.sound
  refine h.step (.refl l) hsound fun t ht => ?_
  rcases World.offers_commit ht with ht | ⟨s, hs, rfl⟩
  · exact .inl ht
  · exact .inr ((h.covers w (.head _) _ .committed).apply (h.covers w (.head _) _ (.view hs)))

theorem use (name : Nat) {β : Type} {op : Op β} (hop : Curates (World.Shown (w :: past)) op)
    (remark : Except Error β → α → α)
    (hnodup : (w.use name op remark).store.mint.ids.given.Nodup) :
    ∃ l' : Lineage, l'.Records (w :: past) (w.use name op remark) := by
  cases hs : w.sessions name with
  | none =>
    have hidle : w.use name op remark = w := by rw [World.use, hs]
    rw [hidle]
    exact ⟨l, h.quiet (.refl _) fun _ => id⟩
  | some s =>
    rw [World.mint_use hs] at hnodup
    have hscene : l.Attests { tx := s.tx, mint := w.store.mint } :=
      ⟨h.sound, h.covers w (.head _) _ (.view hs)⟩
    obtain ⟨l', hl, hattests⟩ := hscene.run (fun _ => h.known) (hop _) hnodup
    refine ⟨l', h.step hl ?_ fun t ht => ?_⟩
    · rw [World.mint_use hs]
      exact hattests.sound
    · rcases World.offers_use hs ht with ht | rfl
      · exact .inl ht
      · exact .inr hattests.covers

end Records

end Lineage

namespace World.Curated

variable {α : Type} {past : List (World α)} {w : World α}

/-- If no identifier was drawn twice, then all that can be looked at in a course of `Curated` agrees
with what is known of infos. -/
theorem lineage (h : Curated past w) (hnodup : w.store.mint.ids.given.Nodup) :
    ∃ l : Lineage, l.Records past w := by
  induction h with
  | init mint => exact ⟨_, .init mint⟩
  | begin name mode isolation note _ ih =>
    obtain ⟨l, hl⟩ := ih hnodup
    exact ⟨l, hl.quiet (.refl _) fun _ => offers_begin⟩
  | @use name β op past w hop remark _ ih =>
    have hgiven : w.store.mint.ids.given <+: (w.use name op remark).store.mint.ids.given := by
      cases hs : w.sessions name with
      | none => rw [World.use, hs]
      | some s =>
        rw [mint_use hs]
        exact (Scene.precedes_of_evolves (hop { tx := s.tx, mint := w.store.mint })).given
    obtain ⟨l, hl⟩ := ih (hnodup.sublist hgiven.sublist)
    exact hl.use name hop remark hnodup
  | commit name _ ih =>
    rw [mint_commit] at hnodup
    obtain ⟨l, hl⟩ := ih hnodup
    exact ⟨l, hl.commit name⟩
  | rollback name _ ih =>
    obtain ⟨l, hl⟩ := ih hnodup
    exact ⟨l, hl.quiet (.refl _) fun _ => offers_rollback⟩
  | @aside f hf hmint past w _ ih =>
    obtain ⟨l, hl⟩ := ih (hnodup.sublist (hmint w.store).given.sublist)
    exact ⟨l, hl.quiet (hmint w.store) fun _ => offers_aside (hf w.store)⟩

end World.Curated

/-! ## Ancestry -/

namespace Transaction

/-- The infos that are met when one asks whence an info is, and whence that is, and so on, until one
is met that is not a copy. Wherever an info is a copy, there is one answer only. -/
inductive Ancestry (tx : Transaction) : Info → List Info → Prop
  | root {i : Info} (h : outcome (i.whence tx) = .ok []) : Ancestry tx i []
  | copy {i source : Info} {t : Transformation} {line : List Info}
    (h : outcome (i.whence tx) = .ok [t])
    (hsource : outcome (Access.requireInfo t.infoIn tx) = .ok source)
    (hline : Ancestry tx source line) : Ancestry tx i (source :: line)

/-- In the view of `tx`, copying makes a forest: no info is a copy twice, every copy is of an info
that was there before it, and whoever goes back from copy to copy comes to an end. -/
structure Genealogy (tx : Transaction) : Prop where
  once : ∀ (j k : TransformationId) t u, tx.view.transformations[j]? = some t →
    tx.view.transformations[k]? = some u → t.infoOut = u.infoOut → j = k
  copies : ∀ (k : TransformationId) t, tx.view.transformations[k]? = some t →
    ∃ source copy, tx.view.infos[t.infoIn]? = some source ∧
      tx.view.infos[t.infoOut]? = some copy ∧ copy.origin = t.node ∧
      source.creationTime.text < copy.creationTime.text ∧
      copy.creationTime.text < t.transformTime.text
  ancestry : ∀ (k : InfoId) i, tx.view.infos[k]? = some i →
    ∃ line, tx.Ancestry i line ∧ ((i :: line).map Info.id).Nodup ∧
      (i :: line).Pairwise fun later earlier =>
        earlier.creationTime.text < later.creationTime.text

end Transaction

namespace Lineage

variable {l : Lineage} {m : Mint}

/-- The info `i` was created before the info `j`. -/
def Older (l : Lineage) (i j : Info) : Prop :=
  ∃ a b, l i.id = some a ∧ i.creationTime = .ofMicros a.instant ∧
    l j.id = some b ∧ j.creationTime = .ofMicros b.instant ∧ a.instant < b.instant

theorem Older.trans {i j k : Info} (h : l.Older i j) (h' : l.Older j k) : l.Older i k := by
  obtain ⟨a, b, ha, hi, hb, -, hlt⟩ := h
  obtain ⟨b', c, hb', -, hc, hk, hlt'⟩ := h'
  rw [hb] at hb'
  cases hb'
  exact ⟨a, c, ha, hi, hc, hk, hlt.trans hlt'⟩

theorem Older.id_ne {i j : Info} (h : l.Older i j) : i.id ≠ j.id := by
  obtain ⟨a, b, ha, -, hb, -, hlt⟩ := h
  intro hid
  rw [hid, hb] at ha
  cases ha
  exact lt_irrefl _ hlt

theorem Older.text_lt (hsound : l.Sound m) (hm : m.clock.Plain) {i j : Info} (h : l.Older i j) :
    i.creationTime.text < j.creationTime.text := by
  obtain ⟨a, b, -, hi, hb, hj, hlt⟩ := h
  rw [hi, hj]
  exact hm.text_lt (hsound.reached _ b hb) hlt

variable {tx : Transaction}

theorem tells_info {k : InfoId} {i : Info} (hcovers : l.Covers tx.view)
    (hi : tx.view.infos[k]? = some i) : l.Tells (.info i) :=
  hcovers _ ⟨.info k, Tables.find?_info.2 hi⟩

theorem tells_transformation {k : TransformationId} {t : Transformation}
    (hcovers : l.Covers tx.view) (ht : tx.view.transformations[k]? = some t) :
    l.Tells (.transformation t) :=
  hcovers _ ⟨.transformation k, Tables.find?_transformation.2 ht⟩

variable (hsound : l.Sound m) (hcovers : l.Covers tx.view) (hview : tx.view.Intact)
include hcovers

/-- The records `t` and `u` of copyings are one if they are of one copy. -/
theorem eq_of_infoOut {j k : TransformationId} {t u : Transformation}
    (ht : tx.view.transformations[j]? = some t) (hu : tx.view.transformations[k]? = some u)
    (h : t.infoOut = u.infoOut) : t = u := by
  obtain ⟨a, ha, hta⟩ := tells_transformation hcovers ht
  obtain ⟨b, hb, hub⟩ := tells_transformation hcovers hu
  rw [h, hb] at ha
  cases ha
  rw [hta] at hub
  exact Option.some.inj hub

include hview

/-- Whoever asks by `whence` gets one answer at most. -/
theorem whence_cases (i : Info) : outcome (i.whence tx) = .ok [] ∨
    ∃ (k : TransformationId) (t : Transformation), tx.view.transformations[k]? = some t ∧
      t.infoOut = i.id ∧ outcome (i.whence tx) = .ok [t] := by
  let query : TransformationQuery := { infoOut := some i.id }
  have hanswer : outcome (i.whence tx) = .ok (tx.view.selectTransformations query) :=
    (Access.answers_transformations query tx).outcome
  have hmem : ∀ t ∈ tx.view.selectTransformations query, ∃ k : TransformationId,
      tx.view.transformations[k]? = some t ∧ t.infoOut = i.id := by
    intro t ht
    rw [Tables.selectTransformations, mem_sort, List.mem_filter] at ht
    obtain ⟨k, hk⟩ := Tables.mem_rows.1 ht.1
    refine ⟨k, hk, ?_⟩
    simpa [TransformationQuery.matches, query, eq_comm] using ht.2
  have hnodup : (tx.view.selectTransformations query).Nodup := by
    rw [Tables.selectTransformations, (sort_perm _ _).nodup_iff]
    have hrows := Tables.rows_nodup fun k t hk => (hview.transformation k t hk).1
    exact (List.Nodup.of_map _ hrows).filter _
  rw [hanswer]
  generalize tx.view.selectTransformations query = found at hmem hnodup
  rcases found with _ | ⟨t, _ | ⟨u, rest⟩⟩
  · exact .inl rfl
  · obtain ⟨k, hk, hout⟩ := hmem t (.head _)
    exact .inr ⟨k, t, hk, hout, rfl⟩
  -- Two answers would be two records of one copying.
  · obtain ⟨j, hj, hout⟩ := hmem t (.head _)
    obtain ⟨k, hk, hout'⟩ := hmem u (.tail _ (.head _))
    rw [eq_of_infoOut hcovers hj hk (hout.trans hout'.symm)] at hnodup
    exact absurd hnodup (by simp)

include hsound

/-- What was copied is there and is older than its copy, which was recorded later. -/
theorem older_of_transformation {k : TransformationId} {t : Transformation}
    (ht : tx.view.transformations[k]? = some t) :
    ∃ source copy, tx.view.infos[t.infoIn]? = some source ∧
      tx.view.infos[t.infoOut]? = some copy ∧ copy.origin = t.node ∧ l.Older source copy ∧
      ∃ b k, copy.creationTime = .ofMicros b ∧ t.transformTime = .ofMicros k ∧ b < k ∧
        m.clock.Reached k := by
  obtain ⟨-, -, hin, hout⟩ := hview.transformation k t ht
  obtain ⟨source, hsource⟩ := Option.isSome_iff_exists.1 (ExtTreeMap.isSome_getElem?_iff_mem.2 hin)
  obtain ⟨copy, hcopy⟩ := Option.isSome_iff_exists.1 (ExtTreeMap.isSome_getElem?_iff_mem.2 hout)
  obtain ⟨a, ha, -, hatime⟩ := tells_info hcovers hsource
  obtain ⟨b, hb, hborigin, hbtime⟩ := tells_info hcovers hcopy
  obtain ⟨b', hb', hcopied⟩ := tells_transformation hcovers ht
  rw [(hview.info _ _ hsource).1] at ha
  rw [(hview.info _ _ hcopy).1] at hb
  rw [hb] at hb'
  cases hb'
  have htrue := hsound.copied _ b t hb hcopied
  obtain ⟨a', ha', hlt⟩ := htrue.infoIn
  rw [ha] at ha'
  cases ha'
  obtain ⟨n, htime, hlt', hreached⟩ := htrue.transformTime
  refine ⟨source, copy, hsource, hcopy, hborigin.trans htrue.node.symm,
    ⟨a, b, ?_, hatime, ?_, hbtime, hlt⟩, b.instant, n, hbtime, htime, hlt', hreached⟩
  · rw [(hview.info _ _ hsource).1, ha]
  · rw [(hview.info _ _ hcopy).1, hb]

/-- Whoever goes back from copy to copy meets infos that are `Older` and older, and comes to an end:
the instants of creation go down. -/
theorem exists_ancestry {k : InfoId} {i : Info} (hi : tx.view.infos[k]? = some i) :
    ∃ line, tx.Ancestry i line ∧ (i :: line).Pairwise fun j j' => l.Older j' j := by
  obtain ⟨b, hb, -⟩ := tells_info hcovers hi
  induction hn : b.instant using Nat.strong_induction_on generalizing k i b with
  | _ n ih =>
    rcases whence_cases hcovers hview i with hroot | ⟨j, t, ht, hout, hcopy⟩
    · exact ⟨[], .root hroot, by simp⟩
    · obtain ⟨source, copy, hsource, hcopied, -, holder, -⟩ :=
        older_of_transformation hsound hcovers hview ht
      obtain rfl : copy = i := by
        rw [hout, (hview.info _ _ hi).1, hi] at hcopied
        exact (Option.some.inj hcopied).symm
      obtain ⟨a, b', ha, -, hb', -, hlt⟩ := id holder
      rw [hb] at hb'
      cases hb'
      obtain ⟨line, hline, hpairwise⟩ := ih a.instant (hn ▸ hlt) hsource a ha rfl
      refine ⟨source :: line, .copy hcopy ?_ hline, List.pairwise_cons.2 ⟨?_, hpairwise⟩⟩
      · exact (Access.answers_require_of_some hsource).outcome
      · refine List.forall_mem_cons.2 ⟨holder, fun j hj => ?_⟩
        exact ((List.pairwise_cons.1 hpairwise).1 j hj).trans holder

end Lineage

namespace World.Curated

variable {α : Type} {past : List (World α)} {w : World α}

/-- Where infos and transformations come about by creating and copying only, and stored infos only
change when their contents are written, copying makes a forest, in all that can be looked at: each
info is a copy once at most, by the node that authored it and of an info that was created before it,
and the copying was recorded later. To go back from copy to copy never comes round and ends at an
info that is not a copy. -/
theorem genealogy (h : Curated past w) (hnodup : w.store.mint.ids.given.Nodup)
    (hclock : w.store.mint.clock.Plain) {tx : Transaction} (htx : w.Offers tx.view) :
    tx.Genealogy := by
  obtain ⟨l, hsound, hcovers⟩ := h.lineage hnodup
  have hview : tx.view.Intact := Tables.intact (h.reachable.keyed_offered htx)
    (h.reachable.closed_offered htx)
  replace hcovers : l.Covers tx.view := hcovers w (.head _) _ htx
  refine ⟨fun j k t u ht hu hout => ?_, fun k t ht => ?_, fun k i hi => ?_⟩
  · have hsame := Lineage.eq_of_infoOut hcovers ht hu hout
    rw [← (hview.transformation j t ht).1, hsame, (hview.transformation k u hu).1]
  · obtain ⟨source, copy, hsource, hcopy, horigin, holder, b, n, hcreated, hrecorded, hlt,
      hreached⟩ := Lineage.older_of_transformation hsound hcovers hview ht
    refine ⟨source, copy, hsource, hcopy, horigin, holder.text_lt hsound hclock, ?_⟩
    rw [hcreated, hrecorded]
    exact hclock.text_lt hreached hlt
  · obtain ⟨line, hline, hpairwise⟩ := Lineage.exists_ancestry hsound hcovers hview hi
    refine ⟨line, hline, ?_, hpairwise.imp fun holder => holder.text_lt hsound hclock⟩
    exact List.pairwise_map.2 (hpairwise.imp fun holder => holder.id_ne.symm)

end World.Curated

namespace World

/-- A node creates an info, and copies it when it has sent it to itself. In another transaction it
does the same with the copy. -/
def echoed : World Unit :=
  ((((init .still).begin 0 .readWrite .serializable ()).use 0 call fun _ => id).commit 0).begin 1
    .readWrite .serializable () |>.use 1 answer fun _ => id
where
  call : Op (List Delivery) := do
    let n ← Node.create .agent
    let _ ← Node.connect n.id n.id
    let i ← Info.create n.id "note" "text"
    let _ ← Node.send (i, n)
    n.receiveAll .replicator
  answer : Op Unit := do
    let n ← Access.requireNode ⟨0⟩
    let copy ← Access.requireInfo ⟨4⟩
    let _ ← Node.send (copy, n)
    (Change.receiveAll n .replicator (Behavior.asks_replicator fun _ _ => trivial)).op

/-- The copy of the copy is one of the infos whose ancestry can be told. -/
theorem genealogy_echoed : ∃ s, echoed.sessions 1 = some s ∧ s.tx.Genealogy ∧
    (s.tx.view.transformations[(⟨8⟩ : TransformationId)]?.map fun t => (t.infoIn, t.infoOut)) =
      some (⟨4⟩, ⟨7⟩) := by
  have hread (k : Key) : (Request.find k).Stores Record.Apart := Request.stores_of_stored?_none rfl
  have hcall {past : List (World Unit)} : Curates (Shown past) echoed.call := by
    refine .bind (Node.curates_create .agent) fun n => ?_
    refine .bind (Node.curates_connect n.id n.id) fun _ => ?_
    refine .bind (Info.curates_create n.id "note" "text") fun i => ?_
    exact .bind (Node.curates_send (i, n)) fun _ => n.curates_receiveAll
  have hanswer {past : List (World Unit)} : Curates (Shown past) echoed.answer := by
    refine .bind (.access (.require (hread _) _)) fun n => ?_
    refine .bind (.access (.require (hread _) _)) fun copy => ?_
    refine .bind (Node.curates_send (copy, n)) fun _ => Change.curates (fun r hr => ?_) ?_
    · cases hr
    · rintro _ _ _ ⟨⟩
      rfl
  have hcurated : Curated _ echoed :=
    .use 1 hanswer _ (.begin 1 _ _ _ (.commit 0 (.use 0 hcall _ (.begin 0 _ _ _ (.init .still)))))
  have hlast : echoed.store.mint.clock.last = some 10 := by decide +kernel
  have hclock : echoed.store.mint.clock.Plain := by
    intro last h
    rw [hlast] at h
    cases h
    decide +kernel
  -- The view is computed once; what follows is about any session with this view.
  have hview : ∀ t ∈ (echoed.sessions 1).map (·.tx.view),
      (t.transformations[(⟨8⟩ : TransformationId)]?.map fun t => (t.infoIn, t.infoOut)) =
        some (⟨4⟩, ⟨7⟩) := by
    decide +kernel
  have hopen : (echoed.sessions 1).isSome := by decide +kernel
  obtain ⟨s, hs⟩ := Option.isSome_iff_exists.1 hopen
  refine ⟨s, hs, hcurated.genealogy (by decide +kernel) hclock (.view hs), ?_⟩
  exact hview s.tx.view (by rw [hs]; rfl)

end World

end Propagation
