import Propagation.Proofs.Chronology
import Propagation.Proofs.Curation
import Propagation.Proofs.Wiring

/-!
# How infos come about

For every info that was ever drawn from the mint one can know who authored it, when, and what it is
a copy of, whether it was stored in the end or not. What is known never changes. The author and the
creation time of a stored info and the record of its copying agree with what is known, and stay so
when contents are written. Since the clock never goes back and no identifier is drawn twice, a copy
was always made after the info that it was made of, and before the record of the copying.

## Main definitions

* `Birth`, `Lineage`: what is known of an info, and of infos.
* `Lineage.Sound`: all that is known has come out of the mint, and copies are younger than what was
  copied.
* `Lineage.Covers`: the records of tables agree with what is known.
* `Lineage.Attests`: both, for an open transaction and the mint.
* `Advances`: a computation in which the mint goes on.

## Main statements

* `Info.final_create`, `Info.final_write`, `Node.final_replicate`: what creating, writing and
  copying store.
* `Lineage.Attests.create`, `Lineage.Attests.write`, `Lineage.Attests.replicate`: what each of them
  adds to what is known.
* `Lineage.Attests.run`: what operations on infos keep.
-/

namespace Propagation

/-! ## What a step stores -/

namespace Info

/-- A new info, as the mint gives it out. -/
def drawn (origin : NodeId) (infoType : String) (contents : Option String) (m : Mint) : Info :=
  { (Info.fresh origin infoType m).1 with contents }

theorem given_drawn (origin : NodeId) (infoType : String) (contents : Option String) (m : Mint) :
    (m.spend .info).ids.given = m.ids.given ++ [(drawn origin infoType contents m).id.number] :=
  IdSource.given_next .info m.ids

theorem stores_insert (i : Info) : Asks (Request.Stores (· = .info i)) (insert i) :=
  .bind (.insert (Request.stores_insert rfl)) fun _ => .pure _

/-- To `create` an info is to draw it, and to store nothing else. -/
theorem final_create (origin : NodeId) (infoType contents : String) (s : Scene) :
    (final (create origin infoType contents s)).mint = s.mint.spend .info ∧
      s.tx.Becomes (Request.Stores (· = .info (drawn origin infoType (some contents) s.mint)))
        (final (create origin infoType contents s)).tx := by
  have hrun : create origin infoType contents s =
      (liftM (insert (drawn origin infoType (some contents) s.mint)) : Op Info)
        { s with mint := s.mint.spend .info } := rfl
  rw [hrun, Op.final_access]
  exact ⟨rfl, stores_insert _ s.tx⟩

/-- The record `r` is an info that was there, with `contents` written. -/
def Filled (t : Tables) (contents : String) (r : Record) : Prop :=
  ∃ i, t.Shows (.info i) ∧ r = .info { i with contents := some contents }

/-- To `write` the contents of an info is to store it with them, and to leave the mint alone. -/
theorem final_write (copy : Info) (contents : String) (s : Scene) :
    (final (Holding.on copy (write contents) s)).mint = s.mint ∧
      s.tx.Becomes (Request.Stores (Filled s.tx.view contents))
        (final (Holding.on copy (write contents) s)).tx := by
  have hread : s.tx.Becomes (Request.Stores (Filled s.tx.view contents))
      (s.tx.noteRead (.info copy.id)) :=
    .after (Request.stores_of_stored?_none (r := .find (.info copy.id)) rfl) s.tx
  have hrequire := Access.require_apply (.info copy.id) (·.infos[copy.id]?) s.tx
  rw [Holding.scene_final_on, write, Op.bind_of_ok (Holding.copy_apply _), Access.requireInfo]
  cases hi : s.tx.view.infos[copy.id]? with
  | none =>
    simp only [hi] at hrequire
    rw [Op.bind_of_error (Holding.access_of_error hrequire)]
    exact ⟨rfl, hread⟩
  | some i =>
    simp only [hi] at hrequire
    rw [Op.bind_of_ok (Holding.access_of_ok hrequire)]
    cases hwrite : i.withContents contents with
    | error e => exact ⟨rfl, hread⟩
    | ok written =>
      have hwritten : written = { i with contents := some contents } := by
        rw [withContents] at hwrite
        split at hwrite <;> cases hwrite
        rfl
      have hfilled : Filled s.tx.view contents (.info written) :=
        ⟨i, ⟨.info copy.id, Tables.find?_info.2 hi⟩, hwritten ▸ rfl⟩
      have hrevise : (s.tx.noteRead (.info copy.id)).Becomes
          (Request.Stores (Filled s.tx.view contents))
          (final (Access.revise (.info written) (s.tx.noteRead (.info copy.id)))) :=
        Asks.revise (Request.stores_revise hfilled) _
      rw [Op.bind_of_ok (Holding.ofExcept_ok _ _), Holding.scene_final_refresh]
      exact ⟨rfl, hread.trans hrevise⟩

end Info

/-- The record of the copying of an info, as the mint gives it out. -/
def Transformation.drawn (node : NodeId) (infoIn infoOut : InfoId) (m : Mint) : Transformation :=
  (Transformation.fresh node infoIn infoOut "replication" m).1

/-- To record the copying of an info with `transform` is to draw a transformation, and to store
nothing else. -/
theorem Node.final_transform (n : Node) (infoIn infoOut : InfoId) (s : Scene) :
    (final (n.transform infoIn infoOut "replication" s)).mint = s.mint.spend .transformation ∧
      s.tx.Becomes
        (Request.Stores (· = .transformation (.drawn n.id infoIn infoOut s.mint)))
        (final (n.transform infoIn infoOut "replication" s)).tx := by
  let t := Transformation.drawn n.id infoIn infoOut s.mint
  have hrun : n.transform infoIn infoOut "replication" s =
      ((liftM (Access.insert (.transformation t)) : Op Unit) >>= fun _ => pure t)
        { s with mint := s.mint.spend .transformation } := rfl
  have hinsert : Asks (Request.Stores (· = .transformation t))
      (Access.insert (.transformation t)) := .insert (Request.stores_insert rfl)
  rw [hrun, Op.final_map, Op.final_access]
  exact ⟨rfl, hinsert s.tx⟩

/-- To `replicate` an info is to draw a new one and to store it. Where this succeeds, a
transformation is drawn as well, and stored. -/
theorem Node.final_replicate (n : Node) (i : Info) (s : Scene) :
    let out := Info.drawn n.id i.infoType i.contents s.mint
    let t := Transformation.drawn n.id i.id out.id (s.mint.spend .info)
    ((final (n.replicate i s)).mint = s.mint.spend .info ∧
      s.tx.Becomes (Request.Stores (· = .info out)) (final (n.replicate i s)).tx) ∨
    ((final (n.replicate i s)).mint = (s.mint.spend .info).spend .transformation ∧
      s.tx.Becomes (Request.Stores fun r => r = .info out ∨ r = .transformation t)
        (final (n.replicate i s)).tx) := by
  intro out t
  have hinsert := Info.stores_insert out s.tx
  have hrun : n.replicate i s = ((liftM (Info.insert out) : Op Info) >>= fun infoOut =>
      n.transform i.id infoOut.id "replication" >>= fun t => pure (infoOut, t))
        { s with mint := s.mint.spend .info } := rfl
  rw [hrun]
  cases hstore : Info.insert out s.tx with
  | error e tx =>
    rw [hstore] at hinsert
    rw [Op.bind_of_error (Op.access_of_error (s := { s with mint := s.mint.spend .info }) hstore)]
    exact .inl ⟨rfl, hinsert⟩
  | ok v tx =>
    rw [hstore] at hinsert
    obtain ⟨-, tx', -, hpure⟩ := Op.of_bind_ok hstore
    cases hpure
    rw [Op.bind_of_ok (Op.access_of_ok (s := { s with mint := s.mint.spend .info }) hstore),
      Op.final_map]
    obtain ⟨hmint, htx⟩ := n.final_transform i.id out.id { tx, mint := s.mint.spend .info }
    exact .inr ⟨hmint, (hinsert.mono fun _ h r hr => .inl (h r hr)).trans
      (htx.mono fun _ h r hr => .inr (h r hr))⟩

/-! ## The mint goes on -/

/-- In each step of `Scene.Evolves` the mint goes on. -/
theorem Scene.Evolves.precedes {held : Info → Prop} {s s' : Scene} (h : s.Evolves held s') :
    s.mint.Precedes s'.mint := by
  cases h with
  | ask hr s => exact .refl _
  | mint h => exact h
  | create origin infoType contents s =>
    rw [(Info.final_create origin infoType contents s).1]
    exact s.mint.precedes_spend .info
  | write copy contents s =>
    rw [(Info.final_write copy contents s).1]
    exact .refl _
  | @replicate n i s hi =>
    have hspend := s.mint.precedes_spend .info
    rcases n.final_replicate i s with ⟨hmint, -⟩ | ⟨hmint, -⟩ <;> rw [hmint]
    · exact hspend
    · exact hspend.trans ((s.mint.spend .info).precedes_spend .transformation)

theorem Scene.precedes_of_evolves {held : Info → Prop} {s s' : Scene}
    (h : Relation.ReflTransGen (Scene.Evolves held) s s') : s.mint.Precedes s'.mint := by
  induction h with
  | refl => exact .refl _
  | tail _ hstep ih => exact ih.trans hstep.precedes

/-- The mint goes on, wherever `a` starts. -/
def Advances {σ α : Type} [Staged σ] (a : EStateM Error σ α) : Prop :=
  ∀ s, (Staged.scene s).mint.Precedes (Staged.scene (final (a s))).mint

theorem Curates.advances {σ α : Type} [Staged σ] {held : Info → Prop} {a : EStateM Error σ α}
    (h : Curates held a) : Advances a := fun s => Scene.precedes_of_evolves (h s)

/-- After `a`, the mint goes on in what follows. -/
theorem Advances.precedes_bind {σ α β : Type} [Staged σ] (a : EStateM Error σ α)
    {f : α → EStateM Error σ β} (hf : ∀ v, Advances (f v)) (s : σ) :
    (Staged.scene (final (a s))).mint.Precedes (Staged.scene (final ((a >>= f) s))).mint := by
  cases hs : a s with
  | ok v s' =>
    rw [Op.bind_of_ok hs]
    exact hf v s'
  | error e s' =>
    rw [Op.bind_of_error hs]
    exact .refl _

/-! ## Lineages -/

/-- How an info came about. -/
structure Birth where
  origin : NodeId
  /-- The instant of its creation, in microseconds after the start of 1970. -/
  instant : Nat
  /-- The record of the copying, if it is a copy. -/
  copied : Option Transformation

/-- How infos came about, whether or not they are stored: the `Birth` of each of them. -/
abbrev Lineage := InfoId → Option Birth

namespace Lineage

/-- Nothing in `l` is forgotten in `l'`. -/
def Grows (l l' : Lineage) : Prop := ∀ i b, l i = some b → l' i = some b

/-- The record `t` of a copying is true: it was made after the copy, and the copy after an info that
is known. -/
structure Copied (l : Lineage) (m : Mint) (i : InfoId) (b : Birth) (t : Transformation) :
    Prop where
  infoOut : t.infoOut = i
  node : t.node = b.origin
  infoIn : ∃ a, l t.infoIn = some a ∧ a.instant < b.instant
  transformTime : ∃ k, t.transformTime = .ofMicros k ∧ b.instant < k ∧ m.clock.Reached k

/-- All that is known in `l` has come out of the mint, and all that is known of copyings is true. -/
structure Sound (l : Lineage) (m : Mint) : Prop where
  issued : ∀ i b, l i = some b → i.number ∈ m.ids.given
  reached : ∀ i b, l i = some b → m.clock.Reached b.instant
  copied : ∀ i b t, l i = some b → b.copied = some t → l.Copied m i b t

/-- The record agrees with what is known in `l`. -/
def Tells (l : Lineage) : Record → Prop
  | .info i => ∃ b, l i.id = some b ∧ i.origin = b.origin ∧ i.creationTime = .ofMicros b.instant
  | .transformation t => ∃ b, l t.infoOut = some b ∧ b.copied = some t
  | _ => True

/-- All records of `t` agree with what is known in `l`. -/
def Covers (l : Lineage) (t : Tables) : Prop := ∀ r, t.Shows r → l.Tells r

variable {l l' : Lineage} {m m' : Mint}

theorem Grows.refl (l : Lineage) : l.Grows l := fun _ _ h => h

theorem Grows.trans {l'' : Lineage} (h : l.Grows l') (h' : l'.Grows l'') : l.Grows l'' :=
  fun i b hb => h' i b (h i b hb)

theorem Copied.mono {i : InfoId} {b : Birth} {t : Transformation} (h : l.Copied m i b t)
    (hl : l.Grows l') (hm : m.Precedes m') : l'.Copied m' i b t where
  infoOut := h.infoOut
  node := h.node
  infoIn := by
    obtain ⟨a, ha, hlt⟩ := h.infoIn
    exact ⟨a, hl _ a ha, hlt⟩
  transformTime := by
    obtain ⟨k, hk, hlt, hreached⟩ := h.transformTime
    exact ⟨k, hk, hlt, hm.reached k hreached⟩

theorem Sound.mono (h : l.Sound m) (hm : m.Precedes m') : l.Sound m' where
  issued i b hb := hm.given.subset (h.issued i b hb)
  reached i b hb := hm.reached _ (h.reached i b hb)
  copied i b t hb ht := (h.copied i b t hb ht).mono (.refl l) hm

theorem tells_of_apart {r : Record} (h : r.Apart) : l.Tells r := by
  cases r with
  | info i => exact absurd rfl h.1
  | transformation t => exact absurd rfl h.2
  | _ => trivial

theorem Tells.mono {r : Record} (h : l.Tells r) (hl : l.Grows l') : l'.Tells r := by
  cases r with
  | info i =>
    obtain ⟨b, hb, hrest⟩ := h
    exact ⟨b, hl _ b hb, hrest⟩
  | transformation t =>
    obtain ⟨b, hb, ht⟩ := h
    exact ⟨b, hl _ b hb, ht⟩
  | _ => trivial

theorem Covers.mono {t : Tables} (h : l.Covers t) (hl : l.Grows l') : l'.Covers t :=
  fun r hr => (h r hr).mono hl

theorem Covers.becomes {new : Record → Prop} {tx tx' : Transaction} (h : l.Covers tx.view)
    (htx : tx.Becomes (Request.Stores new) tx') (hnew : ∀ r, new r → l.Tells r) :
    l.Covers tx'.view := fun r hr => (htx.shows_cases hr).elim (h r) (hnew r)

theorem Covers.apply {c : Committed} {tx : Transaction} (h : l.Covers c.tables)
    (htx : l.Covers tx.view) : l.Covers (c.apply tx).tables := by
  apply Committed.apply_induction (Q := l.Covers)
  · intro k t _ ht r hr
    exact (Tables.shows_copy hr).elim (ht r) (htx r)
  · exact h

/-! ### What a step keeps -/

/-- One more info is known: `i`, born as `b`. -/
def born (i : InfoId) (b : Birth) (l : Lineage) : Lineage := Function.update l i (some b)

/-- What is known in `l` has come out of the mint, and the view agrees with it. -/
structure Attests (l : Lineage) (s : Scene) : Prop where
  sound : l.Sound s.mint
  covers : l.Covers s.tx.view

namespace Attests

variable {s s' : Scene} {new : Record → Prop} (h : l.Attests s)
include h

/-- While nothing is stored but what agrees with `l`, all is well. -/
theorem becomes (hmint : s.mint.Precedes s'.mint)
    (htx : s.tx.Becomes (Request.Stores new) s'.tx) (hnew : ∀ r, new r → l.Tells r) :
    l.Attests s' := ⟨h.sound.mono hmint, h.covers.becomes htx hnew⟩

/-- The info `i`, which has just been drawn, becomes known. -/
theorem born {i : InfoId} {b : Birth} (hmint : s.mint.Precedes s'.mint)
    (hdrawn : s.mint.ids.given ++ [i.number] <+: s'.mint.ids.given)
    (hnodup : s'.mint.ids.given.Nodup) (hreached : s'.mint.clock.Reached b.instant)
    (hcopied : ∀ t, b.copied = some t → l.Copied s'.mint i b t)
    (htx : s.tx.Becomes (Request.Stores new) s'.tx)
    (hnew : ∀ r, new r → (l.born i b).Tells r) :
    ∃ l', l.Grows l' ∧ l'.Attests s' := by
  have hfresh : i.number ∉ s.mint.ids.given := by
    have hdisjoint := (List.nodup_append.1 (hnodup.sublist hdrawn.sublist)).2.2
    exact fun hi => hdisjoint _ hi _ (.head _) rfl
  have hgrows : l.Grows (l.born i b) := by
    intro j a ha
    have hne : j ≠ i := by
      rintro rfl
      exact hfresh (h.sound.issued j a ha)
    rw [Lineage.born, Function.update_of_ne hne, ha]
  -- Whatever is known now was known, or is the info that was drawn.
  have hcases : ∀ j a, l.born i b j = some a → l j = some a ∨ j = i ∧ a = b := by
    intro j a ha
    rw [Lineage.born, Function.update_apply] at ha
    split at ha
    · cases ha
      exact .inr ⟨‹_›, rfl⟩
    · exact .inl ha
  refine ⟨l.born i b, hgrows, ⟨fun j a ha => ?_, fun j a ha => ?_, fun j a t ha ht => ?_⟩, ?_⟩
  · rcases hcases j a ha with ha | ⟨rfl, rfl⟩
    · exact hmint.given.subset (h.sound.issued j a ha)
    · exact hdrawn.subset (List.mem_append_right _ (.head _))
  · rcases hcases j a ha with ha | ⟨rfl, rfl⟩
    · exact hmint.reached _ (h.sound.reached j a ha)
    · exact hreached
  · rcases hcases j a ha with ha | ⟨rfl, rfl⟩
    · exact (h.sound.copied j a t ha ht).mono hgrows hmint
    · exact (hcopied t ht).mono hgrows (.refl _)
  · exact (h.covers.mono hgrows).becomes htx hnew

/-- An info that has just been drawn and is not a copy becomes known, whether it is stored or not.
-/
theorem drawn {origin : NodeId} {infoType : String} {contents : Option String}
    (hmint : s'.mint = s.mint.spend .info)
    (htx : s.tx.Becomes
      (Request.Stores (· = .info (Info.drawn origin infoType contents s.mint))) s'.tx)
    (hnodup : s'.mint.ids.given.Nodup) : ∃ l', l.Grows l' ∧ l'.Attests s' := by
  let i := Info.drawn origin infoType contents s.mint
  refine h.born (i := i.id) (b := ⟨origin, s.mint.clock.tick.1, none⟩) ?_ ?_ hnodup ?_
    (fun _ ht => by cases ht) htx ?_
  · rw [hmint]
    exact s.mint.precedes_spend .info
  · rw [hmint, Info.given_drawn]
  · rw [hmint]
    exact s.mint.clock.reached_tick
  · rintro r rfl
    exact ⟨_, Function.update_self .., rfl, rfl⟩

theorem create (origin : NodeId) (infoType contents : String)
    (hnodup : (final (Info.create origin infoType contents s)).mint.ids.given.Nodup) :
    ∃ l', l.Grows l' ∧ l'.Attests (final (Info.create origin infoType contents s)) := by
  obtain ⟨hmint, htx⟩ := Info.final_create origin infoType contents s
  exact h.drawn hmint htx hnodup

theorem write (copy : Info) (contents : String) :
    l.Attests (final (Holding.on copy (Info.write contents) s)) := by
  obtain ⟨hmint, htx⟩ := Info.final_write copy contents s
  refine h.becomes (hmint ▸ .refl _) htx ?_
  rintro _ ⟨i, hi, rfl⟩
  exact h.covers (.info i) hi

theorem replicate (n : Node) {i : Info} (hi : ∃ a, l i.id = some a)
    (hnodup : (final (n.replicate i s)).mint.ids.given.Nodup) :
    ∃ l', l.Grows l' ∧ l'.Attests (final (n.replicate i s)) := by
  let out := Info.drawn n.id i.infoType i.contents s.mint
  let t := Transformation.drawn n.id i.id out.id (s.mint.spend .info)
  rcases n.final_replicate i s with ⟨hmint, htx⟩ | ⟨hmint, htx⟩
  · exact h.drawn hmint htx hnodup
  · have hspend := s.mint.precedes_spend .info
    have hspend' := (s.mint.spend .info).precedes_spend .transformation
    refine h.born (i := out.id) (b := ⟨n.id, s.mint.clock.tick.1, some t⟩) ?_ ?_ hnodup ?_ ?_ htx ?_
    · rw [hmint]
      exact hspend.trans hspend'
    · rw [hmint]
      exact Info.given_drawn n.id i.infoType i.contents s.mint ▸ hspend'.given
    · rw [hmint]
      exact hspend'.reached _ s.mint.clock.reached_tick
    · rintro _ ⟨⟩
      obtain ⟨a, ha⟩ := hi
      refine ⟨rfl, rfl, ⟨a, ha, (h.sound.reached _ a ha).lt_tick⟩, _, rfl, ?_, ?_⟩
      · exact s.mint.clock.tick_lt_tick
      · rw [hmint]
        exact (s.mint.spend .info).clock.reached_tick
    · rintro r (rfl | rfl)
      · exact ⟨_, Function.update_self .., rfl, rfl⟩
      · exact ⟨_, Function.update_self .., rfl⟩

/-- After a step of `Scene.Evolves`, more may be known, and what is known attests the scene. -/
theorem evolves {held : Info → Prop} (hheld : ∀ i, held i → ∃ a, l i.id = some a)
    (hstep : s.Evolves held s') (hnodup : s'.mint.ids.given.Nodup) :
    ∃ l', l.Grows l' ∧ l'.Attests s' := by
  cases hstep with
  | ask hr s =>
    exact ⟨l, .refl l, h.becomes (.refl _) (.after hr _) fun _ => tells_of_apart⟩
  | mint hm => exact ⟨l, .refl l, h.sound.mono hm, h.covers⟩
  | create origin infoType contents s => exact h.create origin infoType contents hnodup
  | write copy contents s => exact ⟨l, .refl l, h.write copy contents⟩
  | @replicate n i s hi =>
    refine h.replicate n (hi.elim (hheld i) fun hshows => ?_) hnodup
    obtain ⟨a, ha, -⟩ := h.covers _ hshows
    exact ⟨a, ha⟩

/-- So it is after several steps of `Scene.Evolves`. -/
theorem run {held : Info → Prop} (hheld : ∀ i, held i → ∃ a, l i.id = some a)
    (hrun : Relation.ReflTransGen (Scene.Evolves held) s s') (hnodup : s'.mint.ids.given.Nodup) :
    ∃ l', l.Grows l' ∧ l'.Attests s' := by
  induction hrun with
  | refl => exact ⟨l, .refl l, h⟩
  | tail _ hstep ih =>
    obtain ⟨l', hl', h'⟩ := ih (hnodup.sublist hstep.precedes.given.sublist)
    have hheld' : ∀ i, held i → ∃ a, l' i.id = some a := by
      intro i hi
      obtain ⟨a, ha⟩ := hheld i hi
      exact ⟨a, hl' _ a ha⟩
    obtain ⟨l'', hl'', h''⟩ := h'.evolves hheld' hstep hnodup
    exact ⟨l'', hl'.trans hl'', h''⟩

end Attests

end Lineage

end Propagation
