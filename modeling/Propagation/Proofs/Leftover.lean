import Propagation.Proofs.Mirroring
import Propagation.Delivery

/-!
# What a failure leaves behind

An operation that fails in the middle does not take back what it has done by then. For two of the
operations that are asked for through a copy this can be seen.

To receive a transmission marks the copy first and then stores it. So the copy says that it was
received also where it could not be stored: because there is no such transmission, because it is
another one than the copy says, or because the transaction may not write.

To add a source to a network and to join it to one agent makes the source a member first. If there
is no such agent, the source stays a member, in the copy and in the view, and no vector leads from
it.

## Main definitions

* `Tables.Carries`: a copy of a transmission is of one that is stored.
* `Transmission.Stamps`: what becomes of the copy when a transmission is received.
* `Network.AddsTo`: what becomes of a source that is added for one agent.

## Main statements

* `Transmission.receive_stamps`: the copy is marked in any case.
* `World.Reachable.addSourceTo_keeps_iff`: when nothing has changed after a failure.
-/

namespace Propagation

/-! ## Receiving -/

/-- The transmission of which `c` is a copy is stored, with the same info and destination. -/
def Tables.Carries (t : Tables) (c : Transmission) : Prop :=
  ∃ stored, t.transmissions[c.id]? = some stored ∧ stored.info = c.info ∧
    stored.destination = c.destination

/-- A transmission may be replaced by the copy `c` just if the tables carry `c`. -/
theorem Revision.accept_transmission_iff {t : Tables} {c : Transmission} :
    (transmission c).accept t = .ok () ↔ t.Carries c := by
  rw [accept, acceptTransmission, Tables.Carries]
  cases t.transmissions[c.id]? with
  | none => simp
  | some stored => by_cases h : stored.info = c.info <;> simp [h]

namespace Transmission

/-- How it ended to `receive` a transmission through the copy `c`. Whether or not the copy was
stored, it says that it was received. -/
inductive Stamps (c : Transmission) (now : Timestamp) (tx : Transaction) :
    EStateM.Result Error (Holder Transmission) Unit → Prop
  | received {h : Holder Transmission} (hcarries : tx.view.Carries c) (hmode : tx.mode = .readWrite)
    (hcopy : h.copy = c.markReceived now)
    (hrow : h.scene.tx.view.find? (.transmission c.id) = some (.transmission h.copy)) :
    Stamps c now tx (.ok () h)
  | refused {e : Error} {h : Holder Transmission}
    (hrefused : ¬ (tx.view.Carries c ∧ tx.mode = .readWrite))
    (hcopy : h.copy = c.markReceived now) (htx : h.scene.tx = tx) :
    Stamps c now tx (.error e h)

/-- The copy is marked as received at `now`, however it ended. -/
theorem Stamps.copy_eq {c : Transmission} {now : Timestamp} {tx : Transaction}
    {r : EStateM.Result Error (Holder Transmission) Unit} (h : Stamps c now tx r) :
    (final r).copy = c.markReceived now := by
  cases h with
  | received _ _ hcopy => exact hcopy
  | refused _ hcopy => exact hcopy

/-- To `receive` is to mark the copy, and then to store it. -/
theorem receive_apply (c : Transmission) (s : Scene) :
    receive { copy := c, scene := s } =
      (liftM (Access.revise (.transmission (c.markReceived (Minting.now s.mint).1))) :
        Holding Transmission Unit)
        { copy := c.markReceived (Minting.now s.mint).1
          scene := { s with mint := (Minting.now s.mint).2 } } := rfl

/-- Through a copy a transmission is received if it is stored with the same info and destination and
the transaction may write. Otherwise it is not, and yet the copy says from now on that it was. -/
theorem receive_stamps (c : Transmission) (s : Scene) :
    Stamps c (Minting.now s.mint).1 s.tx (receive { copy := c, scene := s }) ∧
      (final (receive { copy := c, scene := s })).copy.receiveTime =
        some (Minting.now s.mint).1 := by
  have hstamps : Stamps c (Minting.now s.mint).1 s.tx (receive { copy := c, scene := s }) := by
    rw [receive_apply]
    generalize (Minting.now s.mint).1 = now
    have haccept : (Revision.transmission (c.markReceived now)).accept s.tx.view = .ok () ↔
        s.tx.view.Carries c := Revision.accept_transmission_iff
    cases hrevise : Access.revise (.transmission (c.markReceived now)) s.tx with
    | ok u tx =>
      obtain ⟨hcarries, hmode, rfl⟩ := Access.recordIf_ok hrevise
      rw [Holding.access_of_ok hrevise]
      exact .received (haccept.1 hcarries) hmode rfl
        (Tables.find?_put_self (.transmission (c.markReceived now)) s.tx.view)
    | error e tx =>
      cases Access.recordIf_error hrevise
      rw [Holding.access_of_error hrevise]
      refine .refused (fun ⟨hcarries, hmode⟩ => ?_) rfl rfl
      rw [Access.revise_of_accept (haccept.2 hcarries) hmode] at hrevise
      cases hrevise
  exact ⟨hstamps, congrArg receiveTime hstamps.copy_eq⟩

end Transmission

namespace World

/-- A transmission is committed, and then a transaction begins that may not write. -/
def archive : List Event :=
  [.begin 0 .readWrite .serializable, .ask 0 (.insert (.node (.numbered 1))),
    .ask 0 (.insert (.node (.numbered 2))), .ask 0 (.insert (.info (.numbered 3 1))),
    .ask 0 (.insert (.transmission pending)), .commit 0, .begin 1 .readOnly .serializable]
where
  pending : Transmission :=
    { id := ⟨4⟩, info := ⟨3⟩, destination := ⟨2⟩, transmitTime := .ofMoment .first }

/-- The transmission cannot be received in the second transaction, and is stored as pending. But the
copy through which this was tried, which was pending too, then says that it was received. -/
theorem claims_receipt_archive : ∃ s, (run .still archive).sessions 1 = some s ∧
    archive.pending.receiveTime = none ∧ ∃ e h,
      Transmission.receive { copy := archive.pending, scene := { tx := s.tx, mint := .still } } =
        .error e h ∧ h.copy.receiveTime ≠ none := by
  have hview : ∀ s ∈ (run .still archive).sessions 1,
      let result := Transmission.receive
        { copy := archive.pending, scene := { tx := s.tx, mint := .still } }
      outcome result = .error (.readOnly s.tx.id) ∧ (final result).copy.receiveTime ≠ none := by
    decide +kernel
  obtain ⟨s, hs⟩ : ∃ s, (run .still archive).sessions 1 = some s := ⟨_, rfl⟩
  obtain ⟨hfails, hmarked⟩ := hview s hs
  exact ⟨s, hs, rfl, _, _, Op.eq_error_of_outcome hfails, hmarked⟩

end World

/-! ## Adding a source for one agent -/

/-- To store the node `n` once more changes nothing. -/
theorem Tables.put_node_eq_self {t : Tables} {n : Node} (h : t.nodes[n.id]? = some n) :
    t.put (.node n) = t := by
  have hnodes : t.nodes.insert n.id n = t.nodes := by
    refine Std.ExtTreeMap.ext_getElem? fun i => ?_
    have hput := nodes_put_node t n i
    by_cases hi : n.id = i
    · rw [if_pos hi] at hput
      exact hput.trans (hi ▸ h.symm)
    · rw [if_neg hi] at hput
      exact hput
  rw [put, hnodes]

namespace Network

/-- How it ended to add a source to `network` and to join it to `agent`, by the vector `v`. The
source is a member afterwards if the network takes it in, also where no vector could be made. -/
inductive AddsTo (network : Network) (agent : NodeId) (copy : Node) (v : Vector)
    (tx : Transaction) : EStateM.Result Error (Holder Node) (List Vector) → Prop
  | joined {h : Holder Node} {stored : Node} (hstored : tx.view.nodes[copy.id]? = some stored)
    (hadmits : network.Admits .source copy tx) (hagent : tx.view.has (.node agent))
    (hfree : tx.view.has (.vector v.id) = false) (hcopy : h.copy = network.member stored)
    (hview : h.scene.tx.view = (tx.view.put (.node (network.member stored))).put (.vector v)) :
    AddsTo network agent copy v tx (.ok [v] h)
  | unjoined {e : Error} {h : Holder Node} {stored : Node}
    (hstored : tx.view.nodes[copy.id]? = some stored) (hadmits : network.Admits .source copy tx)
    (hunjoined : tx.view.has (.node agent) = false ∨ tx.view.has (.vector v.id))
    (hcopy : h.copy = network.member stored)
    (hview : h.scene.tx.view = tx.view.put (.node (network.member stored))) :
    AddsTo network agent copy v tx (.error e h)
  | refused {e : Error} {h : Holder Node}
    (hrefused : ∀ stored, tx.view.nodes[copy.id]? = some stored →
      ¬ network.Admits .source copy tx)
    (hcopy : h.copy = copy) (hview : h.scene.tx.view = tx.view) :
    AddsTo network agent copy v tx (.error e h)

variable {network : Network} {agent : NodeId} {copy : Node} {v : Vector} {tx : Transaction}

/-- A failure to add a source has left all as it was if the network did not take it in, or the copy
is what was stored, and that was a member already. -/
theorem AddsTo.keeps_iff {e : Error} {h : Holder Node}
    (hadds : network.AddsTo agent copy v tx (.error e h)) :
    (h.copy = copy ∧ h.scene.tx.view = tx.view) ↔
      (∀ stored, tx.view.nodes[copy.id]? = some stored → ¬ network.Admits .source copy tx) ∨
      tx.view.nodes[copy.id]? = some copy ∧ copy.network = some network.id := by
  cases hadds with
  | refused hrefused hcopy hview => exact iff_of_true ⟨hcopy, hview⟩ (.inl hrefused)
  | @unjoined e h stored hstored hadmits _ hcopy hview =>
    constructor
    · rintro ⟨hcopy', hview'⟩
      right
      have hmember : network.member stored = copy := hcopy.symm.trans hcopy'
      have hput := Tables.nodes_put_node tx.view (network.member stored) copy.id
      rw [← hview, hview', hmember, if_pos rfl] at hput
      exact ⟨hput, hmember ▸ rfl⟩
    · rintro (hrefused | ⟨hstored', hnetwork⟩)
      · exact absurd hadmits (hrefused stored hstored)
      · cases hstored.symm.trans hstored'
        have hmember : network.member copy = copy := by rw [member, ← hnetwork]
        rw [hcopy, hview, hmember]
        exact ⟨rfl, Tables.put_node_eq_self hstored'⟩

/-- To add a source for the node `agent` ends as `AddsTo` says. -/
theorem addsTo_addSourceTo (network : Network) (agent : NodeId) (copy : Node) {tx : Transaction}
    (mint : Mint) (hkeyed : tx.view.Keyed) :
    network.AddsTo agent copy (Vector.fresh copy.id agent mint).1 tx
      (network.addSourceTo agent { copy, scene := { tx, mint } }) := by
  rcases @adopt_or_admits network .source { copy, scene := { tx, mint } } hkeyed with
    ⟨e, tx', hadopt, hview⟩ | ⟨stored, hstored, hadmits⟩
  · rw [addSourceTo, Op.bind_of_error hadopt]
    refine .refused (fun stored hstored hadmits => ?_) rfl hview
    have hid : stored.id = copy.id := hkeyed.node_id hstored
    rw [adopt_ok hadmits.role_eq hid hstored hadmits.there hadmits.mode] at hadopt
    cases hadopt
  · have hid : stored.id = copy.id := hkeyed.node_id hstored
    have hadopt := @adopt_ok network .source copy stored tx mint hadmits.role_eq hid hstored
      hadmits.there hadmits.mode
    -- what is left once the source is a member is to connect it
    let joined : Holder Node :=
      { copy := network.member stored, scene := { tx := network.enroll stored tx, mint } }
    have hrun : network.addSourceTo agent { copy, scene := { tx, mint } } =
        (liftM (wire [(copy.id, agent)]) : Holding Node (List Vector)) joined := by
      rw [addSourceTo, Op.bind_of_ok hadopt, Op.bind_of_ok (Holding.copy_apply _), ← hid]
      rfl
    have hhas : ∀ k, (network.enroll stored tx).view.has k = tx.view.has k :=
      has_enroll (hid.symm ▸ Tables.has_node_iff.2 ⟨stored, hstored⟩)
    have horigin := (hhas (.node copy.id)).trans (Tables.has_node_iff.2 ⟨stored, hstored⟩)
    have htaken := @Node.connect_taken copy.id agent (network.enroll stored tx) mint
    have hmissing := @Node.connect_missing copy.id agent (network.enroll stored tx) mint horigin
    have hconnect := @Node.connect_ok copy.id agent (network.enroll stored tx) mint hadmits.mode
      horigin
    generalize Vector.fresh copy.id agent mint = drawn at htaken hmissing hconnect ⊢
    obtain ⟨v, mint'⟩ := drawn
    rw [hhas] at htaken hmissing hconnect
    rw [hhas] at hmissing hconnect
    rw [hrun]
    cases hnew : tx.view.has (.vector v.id) with
    | true =>
      rw [Holding.op_of_error (h := joined) (wire_of_error (htaken hnew))]
      exact .unjoined hstored hadmits (.inr hnew) rfl rfl
    | false =>
      cases hagent : tx.view.has (.node agent) with
      | false =>
        rw [Holding.op_of_error (h := joined) (wire_of_error (hmissing hagent hnew))]
        exact .unjoined hstored hadmits (.inl hagent) rfl rfl
      | true =>
        rw [Holding.op_of_ok (h := joined) (wire_of_ok (hconnect hagent hnew))]
        exact .joined hstored hadmits hagent hnew rfl rfl

end Network

/-- To add a source for one agent fails without a trace if the network does not take the source in.
If it does, but there is no such agent or the identifier of the vector is taken, it fails as well,
and the source is a member: all is as it was only if the copy was up to date and said so before. -/
theorem World.Reachable.addSourceTo_keeps_iff {α : Type} {w : World α} (hw : w.Reachable)
    {name : Nat} {s : Session α} (hs : w.sessions name = some s) (network : Network)
    (agent : NodeId) (copy : Node) (mint : Mint) :
    let result := network.addSourceTo agent { copy, scene := { tx := s.tx, mint } }
    network.AddsTo agent copy (Vector.fresh copy.id agent mint).1 s.tx result ∧
    ∀ e h, result = .error e h → ((h.copy = copy ∧ h.scene.tx.view = s.tx.view) ↔
      (∀ stored, s.tx.view.nodes[copy.id]? = some stored → ¬ network.Admits .source copy s.tx) ∨
      s.tx.view.nodes[copy.id]? = some copy ∧ copy.network = some network.id) := by
  intro result
  have hadds : network.AddsTo agent copy (Vector.fresh copy.id agent mint).1 s.tx result :=
    network.addsTo_addSourceTo agent copy mint (hw.sound.sessions name s hs).keyed_view
  refine ⟨hadds, fun e h hresult => ?_⟩
  rw [hresult] at hadds
  exact hadds.keeps_iff

namespace World

/-- A network and a source that has not joined it. -/
def outskirts : List Event :=
  [.begin 0 .readWrite .serializable, .ask 0 (.insert (.network network)),
    .ask 0 (.insert (.node source))]
where
  network : Network := { id := ⟨1⟩, kind := .base, creationTime := .ofMoment .first }
  source : Node := { id := ⟨2⟩, kind := .source, creationTime := .ofMoment .first }

/-- For an agent that was never stored the source is added in vain, and all is not as it was. -/
theorem addSourceTo_keeps_iff_outskirts : ∃ s, (run .still outskirts).sessions 0 = some s ∧
    ∃ e h, outskirts.network.addSourceTo ⟨3⟩
        { copy := outskirts.source, scene := { tx := s.tx, mint := .still } } = .error e h ∧
      ¬ (h.copy = outskirts.source ∧ h.scene.tx.view = s.tx.view) := by
  have hview : ∀ s ∈ (run .still outskirts).sessions 0,
      s.tx.view.nodes[outskirts.source.id]? = some outskirts.source ∧
      s.tx.view.has (.network outskirts.network.id) ∧ s.tx.mode = .readWrite ∧
      s.tx.view.has (.node ⟨3⟩) = false := by
    decide +kernel
  obtain ⟨s, hs⟩ : ∃ s, (run .still outskirts).sessions 0 = some s := ⟨_, rfl⟩
  obtain ⟨hstored, hthere, hmode, hmissing⟩ := hview s hs
  obtain ⟨hadds, hkeeps⟩ := (reachable_run .still outskirts).addSourceTo_keeps_iff hs
    outskirts.network ⟨3⟩ outskirts.source .still
  cases hresult : outskirts.network.addSourceTo ⟨3⟩
      { copy := outskirts.source, scene := { tx := s.tx, mint := .still } } with
  | ok made h =>
    rw [hresult] at hadds
    cases hadds with
    | joined _ _ hagent => cases hmissing.symm.trans hagent
  | error e h =>
    refine ⟨s, hs, e, h, hresult, fun hsame => ?_⟩
    rcases (hkeeps e h hresult).1 hsame with hrefused | ⟨-, hmember⟩
    · exact hrefused _ hstored ⟨rfl, hthere, hmode⟩
    · cases hmember

/-- The source is then a member of the network, in the copy and in the view, and before it was none.
-/
theorem strays_outskirts : ∃ s, (run .still outskirts).sessions 0 = some s ∧
    s.tx.view.nodes[outskirts.source.id]? = some outskirts.source ∧
    outskirts.source.network = none ∧ ∃ e h, outskirts.network.addSourceTo ⟨3⟩
        { copy := outskirts.source, scene := { tx := s.tx, mint := .still } } = .error e h ∧
      h.copy.network = some outskirts.network.id ∧
      h.scene.tx.view.nodes[outskirts.source.id]? = some h.copy := by
  have hview : ∀ s ∈ (run .still outskirts).sessions 0,
      let result := outskirts.network.addSourceTo ⟨3⟩
        { copy := outskirts.source, scene := { tx := s.tx, mint := .still } }
      s.tx.view.nodes[outskirts.source.id]? = some outskirts.source ∧
      outcome result = .error (.missing (.node ⟨3⟩)) ∧
      (final result).copy.network = some outskirts.network.id ∧
      (final result).scene.tx.view.nodes[outskirts.source.id]? = some (final result).copy := by
    decide +kernel
  obtain ⟨s, hs⟩ : ∃ s, (run .still outskirts).sessions 0 = some s := ⟨_, rfl⟩
  obtain ⟨hstored, hfails, hcopy, hrow⟩ := hview s hs
  exact ⟨s, hs, hstored, rfl, _, _, Op.eq_error_of_outcome hfails, hcopy, hrow⟩

end World

end Propagation
