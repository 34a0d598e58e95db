import Propagation.Proofs.Integrity
import Propagation.Proofs.Lineage

/-!
# Receiving everything and copying it

To receive everything is to mark one transmission after the other as received, to look up what each
of them brought, and then to hand all of that to the behavior of the node. A behavior that copies
stores two records for each info that came: a copy of it, which is the node's own, and a record of
the copying. If no record has an identifier that is drawn for them, nothing is in the way of these
records, and no copy takes the place of an info that is still to be copied. Whether the same info
came twice, or has no contents, or was sent by the node to itself, makes no difference.

What waits for a node are its transmissions that are pending. All of them were marked on the way, so
in the end none is left.

## Main definitions

* `Node.copiedAll`: copies and their records, as the mint gives them out.
* `Node.Copies`: an info is a copy of another, and a transformation says so.
* `Node.Receipt`: what there is after a node has received everything and copied it.

## Main statements

* `Node.replicate_ok`, `Node.replicator_ok`: to copy succeeds where identifiers are unused.
* `Node.exists_receipt`: to receive everything and to copy it succeeds, with a receipt.
* `Node.Receipt.waiting_eq_nil`, `Node.receiveAll_of_waiting_eq_nil`: then nothing waits, and to
  receive again does nothing.
-/

namespace Propagation

open Std (ExtTreeMap)

/-! ## Marking as received -/

namespace Node.Delivers

variable {l : List Transmission} {s s' : Scene} {deliveries : List Delivery}
  (h : Node.Delivers l s s' deliveries)
include h

/-- To deliver the transmissions in `l` stores transmissions only, and draws no identifiers. -/
theorem unused {e : Entity} (he : e ≠ .transmission) {last : IdSource}
    (hs : s.tx.view.Unused e s.mint.ids last) : s'.tx.view.Unused e s'.mint.ids last := by
  rw [show s'.mint.ids = s.mint.ids by rw [h.mint]]
  refine hs.anti fun k hk hhas => ?_
  rw [h.view] at hhas
  rcases (Tables.has_putAll _ _).1 hhas with hmem | hhas
  · obtain ⟨r, hr, rfl⟩ := List.mem_map.1 hmem
    obtain ⟨d, -, rfl⟩ := List.mem_map.1 hr
    exact absurd hk.symm he
  · exact hhas

/-- As long as the clock has not got beyond the year 9999, each transmission was received later than
the one before it. -/
theorem increasing (hplain : s'.mint.clock.Plain) : deliveries.Pairwise fun d d' =>
    ∃ now now', d.transmission.receiveTime = some now ∧
      d'.transmission.receiveTime = some now' ∧ now.text < now'.text := by
  have htimes : (deliveries.map (·.transmission.receiveTime)).Pairwise fun o o' =>
      ∃ now now', o = some now ∧ o' = some now' ∧ now.text < now'.text := by
    rw [h.mint] at hplain
    rw [h.times, List.pairwise_map]
    exact (Clock.pairwise_issue hplain).imp fun h => ⟨_, _, rfl, rfl, h⟩
  exact List.pairwise_map.1 htimes

end Node.Delivers

/-! ## Copying -/

namespace Node

/-- The copy of the info `i` and the record of the copying, as the mint gives them out. -/
def copied (n : Node) (i : Info) : Minting (Info × Transformation) := fun m =>
  let out := Info.drawn n.id i.infoType i.contents m
  ((out, .drawn n.id i.id out.id (m.spend .info)), (m.spend .info).spend .transformation)

/-- The copies of `infos` and their records. -/
def copiedAll (n : Node) (infos : List Info) : Minting (List (Info × Transformation)) :=
  infos.mapM n.copied

theorem copiedAll_cons (n : Node) (i : Info) (infos : List Info) (m : Mint) :
    n.copiedAll (i :: infos) m =
      ((n.copied i m).1 :: (n.copiedAll infos (n.copied i m).2).1,
        (n.copiedAll infos (n.copied i m).2).2) := by
  rw [copiedAll, List.mapM_cons]
  rfl

/-- The records that the copy `c` consists of. -/
def copyRecords (c : Info × Transformation) : List Record := [.info c.1, .transformation c.2]

theorem given_copied (n : Node) (i : Info) (m : Mint) : (n.copied i m).2.ids.given =
    m.ids.given ++ (copyRecords (n.copied i m).1).map (·.key.number) := by
  change ((m.spend .info).spend .transformation).ids.given = _
  rw [Mint.spend, IdSource.given_next, Mint.spend, IdSource.given_next, List.append_assoc]
  rfl

/-- Each copy takes two identifiers, and its record the second. -/
theorem given_copiedAll (n : Node) (infos : List Info) (m : Mint) :
    (n.copiedAll infos m).2.ids.given =
      m.ids.given ++ ((n.copiedAll infos m).1.flatMap copyRecords).map (·.key.number) := by
  induction infos generalizing m with
  | nil => exact (List.append_nil _).symm
  | cons i infos ih =>
    rw [copiedAll_cons, ih, given_copied, List.flatMap_cons, List.map_append, List.append_assoc]

theorem precedes_copiedAll (n : Node) (infos : List Info) (m : Mint) :
    m.Precedes (n.copiedAll infos m).2 := by
  induction infos generalizing m with
  | nil => exact .refl m
  | cons i infos ih =>
    rw [copiedAll_cons]
    have hfirst : m.Precedes (n.copied i m).2 :=
      (m.precedes_spend .info).trans ((m.spend .info).precedes_spend .transformation)
    exact hfirst.trans (ih _)

/-- In `c`, node `n` has made a copy of the info `i`, with a record of the copying. -/
structure Copies (n : Node) (i : Info) (c : Info × Transformation) : Prop where
  origin : c.1.origin = n.id
  infoType : c.1.infoType = i.infoType
  contents : c.1.contents = i.contents
  transformationType : c.2.transformationType = "replication"
  node : c.2.node = n.id
  infoIn : c.2.infoIn = i.id
  infoOut : c.2.infoOut = c.1.id

theorem copies_copiedAll (n : Node) (infos : List Info) (m : Mint) :
    List.Forall₂ n.Copies infos (n.copiedAll infos m).1 := by
  induction infos generalizing m with
  | nil => exact .nil
  | cons i infos ih =>
    rw [copiedAll_cons]
    exact .cons ⟨rfl, rfl, rfl, rfl, rfl, rfl, rfl⟩ (ih _)

section Replicate

variable {n : Node} {tx : Transaction} {mint : Mint} {last : IdSource}

/-- To `replicate` draws the identifier of the copy, whether or not it succeeds. -/
theorem prefix_replicate (n : Node) (i : Info) (s : Scene) :
    (s.mint.spend .info).ids.given <+: (final (n.replicate i s)).mint.ids.given := by
  rcases n.final_replicate i s with ⟨hmint, -⟩ | ⟨hmint, -⟩ <;> rw [hmint]
  exact ((s.mint.spend .info).precedes_spend .transformation).given

theorem draws_replicate (n : Node) (i : Info) : Draws (n.replicate i) := fun s =>
  (s.mint.precedes_spend .info).given.trans (n.prefix_replicate i s)

theorem draws_replicator (n : Node) (infos : List Info) :
    Draws (Behavior.replicator.update n infos) := by
  induction infos with
  | nil => exact .pure _
  | cons i infos ih =>
    rw [update_replicator_cons]
    exact (n.draws_replicate i).bind fun _ => ih

/-- To record with `transform` that an info was copied succeeds in a transaction that may write, if
the author and both infos are there and the identifier of the record is free. -/
theorem transform_ok {infoIn infoOut : InfoId} (hmode : tx.mode = .readWrite)
    (hn : tx.view.has (.node n.id)) (hin : tx.view.has (.info infoIn))
    (hout : tx.view.has (.info infoOut)) :
    let t := Transformation.drawn n.id infoIn infoOut mint
    tx.view.has (.transformation t.id) = false →
      n.transform infoIn infoOut "replication" { tx, mint } =
        .ok t { tx := tx.store (.transformation t), mint := mint.spend .transformation } := by
  intro t ht
  have haccept : (Record.transformation t).accept tx.view = .ok () := by
    refine Record.accept_of_free ht fun k hk => ?_
    simp only [Record.references, List.mem_cons, List.not_mem_nil, or_false] at hk
    rcases hk with rfl | rfl | rfl
    · exact hn
    · exact hin
    · exact hout
  have hrun : n.transform infoIn infoOut "replication" { tx, mint } =
      ((liftM (Access.insert (.transformation t)) : Op Unit) >>= fun _ => pure t)
        { tx, mint := mint.spend .transformation } := rfl
  rw [hrun]
  exact Op.bind_of_ok (Op.access_of_ok (Access.insert_of_accept haccept hmode))

/-- To copy an info that is there succeeds in a transaction that may write, if the author is there
and the identifiers that are drawn until `last` are unused. -/
theorem replicate_ok {i : Info} (hmode : tx.mode = .readWrite) (hn : tx.view.has (.node n.id))
    (hi : tx.view.has (.info i.id)) (hinfo : tx.view.Unused .info mint.ids last)
    (htransformation : tx.view.Unused .transformation mint.ids last)
    (hlast : (final (n.replicate i { tx, mint })).mint.ids.given <+: last.given) :
    ∃ tx', n.replicate i { tx, mint } = .ok (n.copied i mint).1
        { tx := tx', mint := (n.copied i mint).2 } ∧ tx'.mode = .readWrite ∧
      tx'.view = tx.view.putAll (copyRecords (n.copied i mint).1) := by
  let out := Info.drawn n.id i.infoType i.contents mint
  let t := Transformation.drawn n.id i.id out.id (mint.spend .info)
  let tx₁ := tx.store (.info out)
  have hout : tx.view.has (.info out.id) = false := by
    have hgiven : (mint.spend .info).ids.given = mint.ids.given ++ [out.id.number] :=
      Info.given_drawn n.id i.infoType i.contents mint
    exact hinfo.free (k := .info out.id) hgiven
      ((n.prefix_replicate i { tx, mint }).trans hlast) (.head _)
  have haccept : (Record.info out).accept tx.view = .ok () :=
    Record.accept_of_free hout (List.forall_mem_singleton.2 hn)
  have hinsert : Info.insert out tx = .ok out tx₁ :=
    Op.bind_of_ok (Access.insert_of_accept haccept hmode)
  have hrun : n.replicate i { tx, mint } =
      (n.transform i.id out.id "replication" >>= fun t => pure (out, t))
        { tx := tx₁, mint := mint.spend .info } :=
    Op.bind_of_ok (Op.access_of_ok (s := { tx, mint := mint.spend .info }) hinsert)
  have ht : tx.view.has (.transformation t.id) = false := by
    have hmint : (final (n.replicate i { tx, mint })).mint = (n.copied i mint).2 := by
      rw [hrun, Op.final_map, (n.final_transform i.id out.id _).1]
      rfl
    rw [hmint] at hlast
    exact htransformation.free (k := .transformation t.id) (n.given_copied i mint) hlast
      (.tail _ (.head _))
  have ht₁ : tx₁.view.has (.transformation t.id) = false := by
    rw [Transaction.view_store, Tables.has_put, Bool.or_eq_false_iff]
    exact ⟨rfl, ht⟩
  have htransform : n.transform i.id out.id "replication" { tx := tx₁, mint := mint.spend .info } =
      .ok t { tx := tx₁.store (.transformation t), mint := (n.copied i mint).2 } :=
    transform_ok hmode (Tables.has_put_of_has hn _) (Tables.has_put_of_has hi _)
      (Tables.has_put_self (.info out) tx.view) ht₁
  exact ⟨tx₁.store (.transformation t), hrun.trans (Op.bind_of_ok htransform), hmode, rfl⟩

/-- Infos that are there are all copied if the identifiers that are drawn until `last` are
unused. -/
theorem replicator_ok {infos : List Info} (hmode : tx.mode = .readWrite)
    (hn : infos ≠ [] → tx.view.has (.node n.id)) (hinfos : ∀ i ∈ infos, tx.view.has (.info i.id))
    (hinfo : tx.view.Unused .info mint.ids last)
    (htransformation : tx.view.Unused .transformation mint.ids last)
    (hlast : (final (Behavior.replicator.update n infos { tx, mint })).mint.ids.given <+:
      last.given) :
    ∃ tx', Behavior.replicator.update n infos { tx, mint } =
        .ok () { tx := tx', mint := (n.copiedAll infos mint).2 } ∧
      tx'.view = tx.view.putAll ((n.copiedAll infos mint).1.flatMap copyRecords) := by
  induction infos generalizing tx mint with
  | nil => exact ⟨tx, rfl, rfl⟩
  | cons i infos ih =>
    obtain ⟨hi, hinfos⟩ := List.forall_mem_cons.1 hinfos
    have hn := hn (List.cons_ne_nil _ _)
    rw [update_replicator_cons] at hlast ⊢
    have hprefix := (Draws.prefix_bind (n.replicate i) (fun _ => n.draws_replicator infos)
      { tx, mint }).trans hlast
    obtain ⟨tx₁, hfirst, hmode₁, hview₁⟩ := replicate_ok hmode hn hi hinfo htransformation hprefix
    rw [hfirst] at hprefix
    have hgiven := n.given_copied i mint
    have hkept {k : Key} (hk : tx.view.has k) : tx₁.view.has k := by
      rw [hview₁]
      exact (Tables.has_putAll _ _).2 (.inr hk)
    have hinfo₁ : tx₁.view.Unused .info (n.copied i mint).2.ids last := by
      rw [hview₁]
      exact hinfo.putAll hgiven hprefix
    have htransformation₁ : tx₁.view.Unused .transformation (n.copied i mint).2.ids last := by
      rw [hview₁]
      exact htransformation.putAll hgiven hprefix
    rw [Op.bind_of_ok hfirst] at hlast ⊢
    obtain ⟨tx₂, hlater, hview₂⟩ := ih hmode₁ (fun _ => hkept hn) (fun j hj => hkept (hinfos j hj))
      hinfo₁ htransformation₁ hlast
    refine ⟨tx₂, ?_, ?_⟩
    · rw [hlater, copiedAll_cons]
    · rw [hview₂, hview₁, copiedAll_cons, List.flatMap_cons, Tables.putAll_append]

end Replicate

end Node

/-! ## Receiving everything -/

/-- The records that are stored by receiving `deliveries` and making `copies`. -/
def Node.written (deliveries : List Delivery) (copies : List (Info × Transformation)) :
    List Record :=
  deliveries.map (.transmission ·.transmission) ++ copies.flatMap copyRecords

/-- A node has received what waited for it, and copied it: each transmission that waited, in the
order of their times and then of their identifiers, was marked as received, one after the other, and
each of the infos that they brought was copied. All of this is stored, the copies under identifiers
that were free, and all other records are as before. -/
structure Node.Receipt (n : Node) (t t' : Tables) (waiting : List Transmission)
    (deliveries : List Delivery) (copies : List (Info × Transformation)) : Prop where
  waits : ∀ m, m ∈ waiting ↔
    t.transmissions[m.id]? = some m ∧ m.destination = n.id ∧ m.isPending
  ordered : waiting.Pairwise fun m m' => m.chronological m' = .lt
  received : List.Forall₂ (fun m d => ∃ now, d.transmission = m.markReceived now ∧
    t.infos[m.info]? = some d.info) waiting deliveries
  increasing : deliveries.Pairwise fun d d' => ∃ now now', d.transmission.receiveTime = some now ∧
    d'.transmission.receiveTime = some now' ∧ now.text < now'.text
  copied : List.Forall₂ (fun d c => n.Copies d.info c) deliveries copies
  free : ∀ c ∈ copies, t.has (.info c.1.id) = false ∧ t.has (.transformation c.2.id) = false
  distinct : (copies.map (·.1.id)).Nodup ∧ (copies.map (·.2.id)).Nodup
  stored : ∀ k r, t'.find? k = some r ↔ (r ∈ Node.written deliveries copies ∧ r.key = k) ∨
    (k ∉ (Node.written deliveries copies).map Record.key ∧ t.find? k = some r)

namespace Node

/-- Both halves of the copies stand in order among their records. -/
theorem sublist_copyRecords (copies : List (Info × Transformation)) :
    (copies.map (Record.info ·.1)).Sublist (copies.flatMap copyRecords) ∧
      (copies.map (Record.transformation ·.2)).Sublist (copies.flatMap copyRecords) := by
  induction copies with
  | nil => exact ⟨.slnil, .slnil⟩
  | cons c copies ih => exact ⟨(ih.1.cons _).cons_cons _, (ih.2.cons_cons _).cons _⟩

section Written

variable {deliveries : List Delivery} {copies : List (Info × Transformation)}

/-- Copies with different identifiers are copies under different keys, and records of different
kinds never get into each other's way. -/
theorem nodup_written (hdeliveries : (deliveries.map (·.transmission.id)).Nodup)
    (hcopies : ((copies.flatMap copyRecords).map (·.key.number)).Nodup) :
    ((written deliveries copies).map Record.key).Nodup := by
  rw [written, List.map_append, List.nodup_append]
  refine ⟨?_, ?_, ?_⟩
  · rw [List.map_map]
    exact (List.map_map (g := Key.transmission) ▸ hdeliveries.map fun _ _ => Key.transmission.inj)
  · exact .of_map Key.number (by rwa [List.map_map])
  · rintro k hk l hl rfl
    obtain ⟨r, hr, rfl⟩ := List.mem_map.1 hk
    obtain ⟨d, -, rfl⟩ := List.mem_map.1 hr
    obtain ⟨r', hr', hkey⟩ := List.mem_map.1 hl
    obtain ⟨c, -, hc⟩ := List.mem_flatMap.1 hr'
    rcases List.mem_pair.1 hc with rfl | rfl <;> cases hkey

theorem nodup_of_copyRecords (hcopies : ((copies.flatMap copyRecords).map (·.key.number)).Nodup) :
    (copies.map (·.1.id)).Nodup ∧ (copies.map (·.2.id)).Nodup := by
  obtain ⟨hinfos, htransformations⟩ := sublist_copyRecords copies
  refine ⟨.of_map Id.number ?_, .of_map Id.number ?_⟩
  · have hnumbers := hcopies.sublist (hinfos.map (·.key.number))
    rwa [List.map_map] at hnumbers ⊢
  · have hnumbers := hcopies.sublist (htransformations.map (·.key.number))
    rwa [List.map_map] at hnumbers ⊢

end Written

/-- Where the identifiers that are drawn are unused, `receiveAll` with a behavior that copies
succeeds in a transaction that may write. -/
theorem exists_receipt (n : Node) {tx : Transaction} {mint : Mint} (hmode : tx.mode = .readWrite)
    (hkeyed : tx.view.Keyed) (hclosed : tx.view.Closed)
    (hinfo : tx.view.Unused .info mint.ids (final (n.receiveAll .replicator { tx, mint })).mint.ids)
    (htransformation : tx.view.Unused .transformation mint.ids
      (final (n.receiveAll .replicator { tx, mint })).mint.ids)
    (hplain : (final (n.receiveAll .replicator { tx, mint })).mint.clock.Plain) :
    ∃ deliveries copies scene, n.receiveAll .replicator { tx, mint } = .ok deliveries scene ∧
      n.Receipt tx.view scene.tx.view (tx.view.waiting n) deliveries copies := by
  have hnodup := Tables.nodup_waiting (n := n) hkeyed
  obtain ⟨deliveries, scene₁, hpending, hdelivers⟩ :=
    exists_receivePending hkeyed hclosed hmode n mint
  let infos := deliveries.map (·.info)
  let copies := (n.copiedAll infos scene₁.mint).1
  have hrun : n.receiveAll .replicator { tx, mint } =
      (Behavior.replicator.update n infos >>= fun _ => pure deliveries) scene₁ := by
    rw [receiveAll_eq, Op.bind_of_ok hpending]
  have hnode : infos ≠ [] → scene₁.tx.view.has (.node n.id) := fun hne =>
    hdelivers.has_node hkeyed hclosed (fun _ hm => hm) (mt (congrArg _) hne)
  have hinfos : ∀ i ∈ infos, scene₁.tx.view.has (.info i.id) :=
    List.forall_mem_map.2 fun d hd => hdelivers.has_info hkeyed hd
  rw [hrun, Op.final_map] at hinfo htransformation hplain
  obtain ⟨tx₂, hcopied, hview⟩ := replicator_ok hdelivers.mode hnode hinfos
    (hdelivers.unused (by decide) hinfo) (hdelivers.unused (by decide) htransformation)
    List.prefix_rfl
  rw [hcopied] at hinfo htransformation hplain
  have hgiven : (n.copiedAll infos scene₁.mint).2.ids.given =
      mint.ids.given ++ (copies.flatMap copyRecords).map (·.key.number) := by
    rw [given_copiedAll, show scene₁.mint.ids = mint.ids by rw [hdelivers.mint]]
  have hfresh := hinfo.nodup hgiven List.prefix_rfl
  have hkeys : ((written deliveries copies).map Record.key).Nodup :=
    nodup_written (hdelivers.ids_eq ▸ hnodup) hfresh
  refine ⟨deliveries, copies, _, hrun.trans (Op.bind_of_ok hcopied), ?_⟩
  refine ⟨fun m => Tables.mem_waiting hkeyed, Tables.pairwise_waiting hkeyed,
    hdelivers.received, ?_, ?_, fun c hc => ?_,
    nodup_of_copyRecords hfresh, fun k r => ?_⟩
  · exact hdelivers.increasing (hplain.of_reached (n.precedes_copiedAll infos scene₁.mint).reached)
  · exact List.forall₂_map_left_iff.1 (n.copies_copiedAll infos scene₁.mint)
  · have hmem {r : Record} (hr : r ∈ copyRecords c) :
        r.key.number ∈ (copies.flatMap copyRecords).map (·.key.number) :=
      List.mem_map_of_mem (List.mem_flatMap.2 ⟨c, hc, hr⟩)
    exact ⟨hinfo.free (k := .info c.1.id) hgiven List.prefix_rfl (hmem (.head _)),
      htransformation.free (k := .transformation c.2.id) hgiven List.prefix_rfl
        (hmem (.tail _ (.head _)))⟩
  · change tx₂.view.find? k = some r ↔ _
    rw [hview, hdelivers.view, ← Tables.putAll_append]
    exact Tables.find?_putAll hkeys _

end Node

/-! ## Receiving again -/

namespace Node.Receipt

variable {n : Node} {t t' : Tables} {waiting : List Transmission} {deliveries : List Delivery}
  {copies : List (Info × Transformation)} (h : n.Receipt t t' waiting deliveries copies)
include h

theorem keyed (ht : t.Keyed) : t'.Keyed := by
  intro k r hr
  rcases (h.stored k r).1 hr with ⟨-, hkey⟩ | ⟨-, hold⟩
  · exact hkey
  · exact ht k r hold

/-- After the receipt nothing waits for node `n`. -/
theorem waiting_eq_nil (ht : t.Keyed) : t'.waiting n = [] := by
  rw [List.eq_nil_iff_forall_not_mem]
  intro m hm
  obtain ⟨hstored, hdestination, hpending⟩ := (Tables.mem_waiting (h.keyed ht)).1 hm
  rcases (h.stored _ _).1 (Tables.find?_transmission.2 hstored) with ⟨hmem, -⟩ | ⟨hfree, hold⟩
  · -- what was written was received
    rcases List.mem_append.1 hmem with hmem | hmem
    · obtain ⟨d, hd, heq⟩ := List.mem_map.1 hmem
      cases heq
      obtain ⟨m', -, now, hmarked, -⟩ := exists_of_forall₂ h.received hd
      rw [hmarked] at hpending
      cases hpending
    · obtain ⟨c, -, hc⟩ := List.mem_flatMap.1 hmem
      rcases List.mem_pair.1 hc with hc | hc <;> cases hc
  · -- and what was not written had not been waiting
    have hwaits := (h.waits m).2 ⟨Tables.find?_transmission.1 hold, hdestination, hpending⟩
    obtain ⟨d, hd, now, hmarked, -⟩ := exists_of_forall₂ h.received.flip hwaits
    refine hfree (List.mem_map.2 ⟨.transmission d.transmission, ?_, ?_⟩)
    · exact List.mem_append_left _ (List.mem_map_of_mem hd)
    · rw [hmarked]
      rfl

end Node.Receipt

/-- If nothing waits for node `n`, it receives nothing, and stores nothing. -/
theorem Node.receiveAll_of_waiting_eq_nil {n : Node} {s : Scene} (h : s.tx.view.waiting n = []) :
    n.receiveAll .replicator s = .ok [] { s with tx := s.tx.noteScan .transmission } := by
  have hpending : n.receivePending s = .ok [] { s with tx := s.tx.noteScan .transmission } := by
    rw [n.receivePending_apply s.tx s.mint, h]
    rfl
  rw [receiveAll_eq, Op.bind_of_ok hpending]
  rfl

end Propagation
