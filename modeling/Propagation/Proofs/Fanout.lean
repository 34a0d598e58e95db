import Propagation.Proofs.Chronology
import Propagation.Proofs.Sending

/-!
# What a sending does

A sending that succeeds has sent every info to every node, one info after the other, and no pair
twice. For each pair there is a transmission that nobody has received yet. It got an identifier that
was free and a time after that of the transmission before it, and nothing else has been stored,
except for the info that a source makes if it is not told what to send.

This info is made when it is clear that there is somebody to send to. If nobody is found, whatever
the behavior would have sent, nothing has been stored.

## Main definitions

* `Node.FansOut`: all this of a sending.

## Main statements

* `Node.transmit_of_error`: what is not done if nobody is found.
* `World.Reachable.fansOut_of_transmit`: what a sending that succeeds has done.
-/

namespace Propagation

namespace Node

/-- If nobody to send to is found, the hook for content is not asked, whatever it would do: nothing
has happened but that one has looked. -/
theorem transmit_of_error {n : Node} {b : Behavior} (hb : b.Provided) {tx : Transaction}
    (ht : tx.view.Intact) {r : Option Recipients} {mint : Mint} {e : Error}
    (he : outcome (n.planRecipients b r { tx, mint }) = .error e) : ∃ tx', tx.Noted tx' ∧
      ∀ hook, n.transmit { b with content := hook } none r { tx, mint } =
        .error e { tx := tx', mint } := by
  have hanswers := (n.answers_someRecipients ht (r.getD (.ofType .any)) rfl).op mint
  obtain ⟨-, tx', hnoted, hfinal⟩ := hanswers
  have hrun : n.planRecipients b r { tx, mint } = .error e { tx := tx', mint } := by
    have herror := Op.eq_error_of_outcome he
    rw [hb.planRecipients_eq] at herror ⊢
    exact herror.trans (congrArg (EStateM.Result.error e) hfinal)
  exact ⟨tx', hnoted, fun hook => Op.bind_of_error (Op.bind_of_error hrun)⟩

/-- Each of these infos went to each of these nodes: the plan pairs them, and for each pair, one
info after the other, and each pair once, there is a transmission that is pending. It is stored
under an identifier that was free, and nothing else is, apart from what the behavior has stored for
what was sent. As long as the clock has not got beyond the year 9999, each transmission has a later
time than the one before it. -/
structure FansOut (n : Node) (b : Behavior) (c : Option Content) (r : Option Recipients)
    (s s' : Scene) (infos : List Info) (nodes : List Node) (created : List Transmission) :
    Prop where
  plan : outcome (n.plan b c r s) = .ok (pairs infos nodes)
  ne_nil : created ≠ []
  ends : created.map (fun m => (m.info, m.destination)) =
    infos.map (·.id) ×ˢ nodes.map (·.id)
  once : (created.map fun m => (m.info, m.destination)).Nodup
  pending : ∀ m ∈ created, m.isPending
  times : s'.mint.clock.Plain →
    created.Pairwise fun m m' => m.transmitTime.text < m'.transmitTime.text
  adds : ∃ base, n.Plans b c r s.tx.view base infos nodes ∧ base.Adds created s'.tx.view

theorem map_pairs (infos : List Info) (nodes : List Node) :
    (pairs infos nodes).map (fun p => (p.1.id, p.2.id)) =
      infos.map (·.id) ×ˢ nodes.map (·.id) := by
  simp [pairs, SProd.sprod, List.product, List.map_flatMap, List.flatMap_map, Function.comp_def]

/-- Where `transmit` succeeds, it fans out. -/
theorem exists_fansOut {n : Node} {b : Behavior} (hb : b.Provided) {tx : Transaction}
    {mint : Mint} (hkeyed : tx.view.Keyed) (hclosed : tx.view.Closed) {c : Option Content}
    {r : Option Recipients} {created : List Transmission} {scene : Scene}
    (h : n.transmit b c r { tx, mint } = .ok created scene) :
    ∃ infos nodes, n.FansOut b c r { tx, mint } scene infos nodes created := by
  obtain ⟨l, s₁, hplan, hsend⟩ := Op.of_bind_ok h
  obtain ⟨infos, nodes, rfl, hplans⟩ := plans_of_plan hb hkeyed hclosed hplan
  have hsent := mapM_send_dispatches hsend
  have hends := hsent.ends.trans (map_pairs infos nodes)
  refine ⟨infos, nodes, by rw [hplan]; rfl, ?_, hends, ?_, hsent.pending, fun hplain => ?_,
    _, hplans, hsent.adds⟩
  · rintro rfl
    have hlength := congrArg List.length hends
    simp [List.length_product, hplans.infos_ne_nil, hplans.nodes_ne_nil] at hlength
  · rw [hends]
    exact hplans.nodup.1.product hplans.nodup.2
  · have htimes := Clock.pairwise_issue (n := (pairs infos nodes).length) (c := s₁.mint.clock)
      (by rw [hsent.issued]; exact hplain)
    rw [hsent.issued] at htimes
    simpa only [List.pairwise_map] using htimes

end Node

namespace World

variable {α : Type} {w : World α}

/-- A node with one of the behaviors that come with the store that succeeds in sending has sent each
of some infos to each of some nodes, each pair once. If it was not told what to send, it has first
found somebody to send to. Where it finds nobody, the sending fails for this reason, and nothing is
stored, whatever its behavior would have sent. -/
theorem Reachable.fansOut_of_transmit (h : w.Reachable) {name : Nat} {s : Session α}
    (hs : w.sessions name = some s) (n : Node) {b : Behavior} (hb : b.Provided)
    (c : Option Content) (r : Option Recipients) (mint : Mint) :
    (∀ created scene, n.transmit b c r { tx := s.tx, mint } = .ok created scene →
      ∃ infos nodes, n.FansOut b c r { tx := s.tx, mint } scene infos nodes created) ∧
    ((∃ nodes, outcome (n.planRecipients b r { tx := s.tx, mint }) = .ok nodes ∧ nodes ≠ []) ∨
      ∃ e tx', outcome (n.planRecipients b r { tx := s.tx, mint }) = .error e ∧ s.tx.Noted tx' ∧
        ∀ hook, n.transmit { b with content := hook } none r { tx := s.tx, mint } =
          .error e { tx := tx', mint }) := by
  have hkeyed := (h.sound.sessions name s hs).keyed_view
  have hclosed := h.closed_view hs
  refine ⟨fun created scene hrun => Node.exists_fansOut hb hkeyed hclosed hrun, ?_⟩
  have hintact := Tables.intact hkeyed hclosed
  cases hnodes : outcome (n.planRecipients b r { tx := s.tx, mint }) with
  | error e =>
    obtain ⟨tx', hnoted, htransmit⟩ := Node.transmit_of_error hb hintact hnodes
    exact .inr ⟨e, tx', rfl, hnoted, htransmit⟩
  | ok nodes =>
    rw [hb.planRecipients_eq] at hnodes
    obtain ⟨tx', hrun, -⟩ := Op.of_access_ok (Op.eq_ok_of_outcome hnodes)
    exact .inl ⟨nodes, rfl, (Node.read_of_someRecipients hintact hrun).1.2⟩

/-- Two vectors lead from the first node to the second one and one to the third, from which none
leads on. -/
def newsroom : List Event :=
  [.begin 0 .readWrite .serializable, .ask 0 (.insert (.node (.numbered 1))),
    .ask 0 (.insert (.node (.numbered 2))), .ask 0 (.insert (.node (.numbered 3))),
    .ask 0 (.insert (.vector (.numbered 4 1 2))), .ask 0 (.insert (.vector (.numbered 5 1 3))),
    .ask 0 (.insert (.vector (.numbered 6 1 2))), .ask 0 (.insert (.info (.numbered 7 1)))]
where
  /-- A node sends the news to all that it can reach. -/
  send (n : Nat) (tx : Transaction) : EStateM.Result Error Scene (List Transmission) :=
    (Node.numbered n).transmit (.constantSource "news" "rain") none none { tx, mint := .still }

/-- The news are sent once to each node, one after the other. Where they can not be sent, nothing
has been stored. -/
theorem fansOut_of_transmit_newsroom : ∃ s, (run .still newsroom).sessions 0 = some s ∧
    (∃ created scene, newsroom.send 1 s.tx = .ok created scene ∧
      (∃ infos nodes, (Node.numbered 1).FansOut (.constantSource "news" "rain") none none
        { tx := s.tx, mint := .still } scene infos nodes created) ∧
      (created.Pairwise fun m m' => m.transmitTime.text < m'.transmitTime.text) ∧
      created.map (fun m => (m.info, m.destination)) = [(⟨0⟩, ⟨2⟩), (⟨0⟩, ⟨3⟩)]) ∧
    ∃ tx', s.tx.Noted tx' ∧
      newsroom.send 3 s.tx = .error (.nobodyToReach ⟨3⟩) { tx := tx', mint := .still } := by
  obtain ⟨s, hs⟩ : ∃ s, (run .still newsroom).sessions 0 = some s := ⟨_, rfl⟩
  -- The answers are computed once; what follows is about any session that gives them.
  have hanswers : ∀ s ∈ (run .still newsroom).sessions 0,
      (outcome (newsroom.send 1 s.tx)).map (List.map fun m => (m.info, m.destination)) =
        .ok [(⟨0⟩, ⟨2⟩), (⟨0⟩, ⟨3⟩)] ∧
      (final (newsroom.send 1 s.tx)).mint.clock.last = some 2 ∧
      outcome ((Node.numbered 3).planRecipients (.constantSource "news" "rain") none
        { tx := s.tx, mint := .still }) = .error (.nobodyToReach ⟨3⟩) := by
    decide +kernel
  obtain ⟨hends, hlast, hnobody⟩ := hanswers s hs
  have hprovided := Behavior.Provided.constantSource "news" "rain"
  obtain ⟨hfansOut, -⟩ := Reachable.fansOut_of_transmit (reachable_run .still newsroom) hs
    (.numbered 1) hprovided none none .still
  obtain ⟨-, hnone⟩ := Reachable.fansOut_of_transmit (reachable_run .still newsroom) hs
    (.numbered 3) hprovided none none .still
  refine ⟨s, hs, ?_, ?_⟩
  · cases hsend : newsroom.send 1 s.tx with
    | error e scene =>
      rw [hsend] at hends
      cases hends
    | ok created scene =>
      rw [hsend] at hends hlast
      obtain ⟨infos, nodes, hfans⟩ := hfansOut created scene hsend
      have hplain : scene.mint.clock.Plain := by
        intro last hl
        cases hlast.symm.trans hl
        decide +kernel
      exact ⟨created, scene, rfl, ⟨infos, nodes, hfans⟩, hfans.times hplain, Except.ok.inj hends⟩
  · rcases hnone with ⟨nodes, hok, -⟩ | ⟨e, tx', he, hnoted, hfails⟩
    · cases hok.symm.trans hnobody
    · cases he.symm.trans hnobody
      exact ⟨tx', hnoted, hfails _⟩

end World

end Propagation
