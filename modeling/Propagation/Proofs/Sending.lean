import Propagation.Proofs.Planning

/-!
# What a failed sending leaves behind

To send is first to plan and then to store one transmission for each pair of the plan. To plan
stores no transmission, and it checks that the infos are the sender's own and that a live vector
leads to each node; but that an info is stored at all is only noticed when its transmission is to be
stored. By then the pairs before it have been sent.

This is the one way for a sending that fails to leave something behind, if the node sends what
somebody names: an info that is named and not stored. What a search finds is stored, and so is what
a behavior creates. Apart from that, only a mint that gives out an identifier twice can stop a
sending half way.

## Main definitions

* `Tables.Adds`: tables that have got these transmissions and nothing else.
* `Node.Dispatches`: for each pair a transmission has been stored.
* `Transaction.NoneSent`: no transmission has been stored in a transaction.

## Main statements

* `Node.mapM_send_dispatches`, `Node.mapM_send_error`: how storing the transmissions succeeds, and
  how it fails.
* `World.Reachable.noneSent_of_transmit_error`: what a sending that fails leaves behind.
-/

namespace Propagation

/-! ## Storing the transmissions -/

namespace Tables

/-- The tables `t'` have got the transmissions `ms`, under different identifiers that were free, and
are like `t` apart from that. -/
structure Adds (t : Tables) (ms : List Transmission) (t' : Tables) : Prop where
  free : ∀ m ∈ ms, t.transmissions[m.id]? = none
  nodup : (ms.map (·.id)).Nodup
  lookup : ∀ (i : TransmissionId) m, t'.transmissions[i]? = some m ↔
    t.transmissions[i]? = some m ∨ m ∈ ms ∧ m.id = i
  rest : t' = { t with transmissions := t'.transmissions }

namespace Adds

variable {t t' : Tables} {m : Transmission} {ms : List Transmission}

theorem nil (t : Tables) : t.Adds [] t :=
  ⟨List.forall_mem_nil _, List.nodup_nil, fun i m => by simp, rfl⟩

/-- To store the transmission `m` under a free identifier, and then `ms`, is to store them all. -/
theorem cons (hm : t.transmissions[m.id]? = none) (h : (t.put (.transmission m)).Adds ms t') :
    t.Adds (m :: ms) t' := by
  have hother : ∀ m' ∈ ms, m.id ≠ m'.id ∧ t.transmissions[m'.id]? = none := by
    intro m' hm'
    have hfree := h.free m' hm'
    rw [transmissions_put] at hfree
    split at hfree
    · cases hfree
    · exact ⟨‹_›, hfree⟩
  refine ⟨List.forall_mem_cons.2 ⟨hm, fun m' hm' => (hother m' hm').2⟩, ?_, fun i m' => ?_, h.rest⟩
  · refine List.nodup_cons.2 ⟨fun hmem => ?_, h.nodup⟩
    obtain ⟨m', hm', hid⟩ := List.mem_map.1 hmem
    exact (hother m' hm').1 hid.symm
  · rw [h.lookup, transmissions_put, List.mem_cons]
    by_cases hi : m.id = i
    · subst hi
      rw [if_pos rfl, hm]
      grind
    · rw [if_neg hi]
      grind

end Adds

end Tables

/-- A transmission `m` to a node that is there is refused for want of its info, or because its
identifier is taken. -/
theorem Record.accept_transmission_error {t : Tables} {m : Transmission} {e : Error}
    (h : (Record.transmission m).accept t = .error e) (hm : m.destination ∈ t.nodes) :
    m.info ∉ t.infos ∧ e = .missing (.info m.info) ∨ e = .duplicate (.transmission m.id) := by
  have hnode : t.has (.node m.destination) := Tables.has_node.2 hm
  rw [accept] at h
  split at h
  · cases h
    exact .inr rfl
  · cases hinfo : t.has (.info m.info) with
    | true => simp [Tables.requireAll, Tables.firstMissing?, references, hinfo, hnode] at h
    | false =>
      simp only [Tables.requireAll, Tables.firstMissing?, references, List.find?_cons, hinfo,
        Bool.not_false] at h
      cases h
      refine .inl ⟨fun hmem => ?_, rfl⟩
      rw [Tables.has_info.2 hmem] at hinfo
      cases hinfo

namespace Node

section Send

variable {p : Info × Node} {tx : Transaction} {mint : Mint}

/-- To `send` stores a transmission if it is accepted and the transaction may write. -/
theorem send_apply (p : Info × Node) (tx : Transaction) (mint : Mint) :
    let drawn := Transmission.fresh p.1.id p.2.id mint
    send p { tx, mint } = match (Record.transmission drawn.1).accept tx.view, tx.mode with
      | .error e, _ => .error e { tx, mint := drawn.2 }
      | .ok (), .readOnly => .error (.readOnly tx.id) { tx, mint := drawn.2 }
      | .ok (), .readWrite =>
        .ok drawn.1 { tx := tx.store (.transmission drawn.1), mint := drawn.2 } := by
  intro drawn
  have hrun : send p { tx, mint } = (do
      Access.insert (.transmission drawn.1)
      return drawn.1 : Op Transmission) { tx, mint := drawn.2 } :=
    Op.bind_of_ok (Op.minting_apply (Transmission.fresh p.1.id p.2.id) { tx, mint })
  have hinsert := Access.insert_apply (.transmission drawn.1) tx
  rw [Access.recordIf_apply, Access.record_apply] at hinsert
  rw [hrun]
  clear_value drawn
  cases haccept : (Record.transmission drawn.1).accept tx.view with
  | error e =>
    rw [haccept] at hinsert
    exact Op.bind_of_error (Op.access_of_error (s := { tx, mint := drawn.2 }) hinsert)
  | ok u =>
    cases hmode : tx.mode with
    | readOnly =>
      rw [haccept, hmode] at hinsert
      exact Op.bind_of_error (Op.access_of_error (s := { tx, mint := drawn.2 }) hinsert)
    | readWrite =>
      rw [haccept, hmode] at hinsert
      exact Op.bind_of_ok (Op.access_of_ok (s := { tx, mint := drawn.2 }) hinsert)

/-- A transmission that `send` answers was made for the pair `p`, was accepted and is stored. -/
theorem eq_of_send_ok {m : Transmission} {scene : Scene} (h : send p { tx, mint } = .ok m scene) :
    let drawn := Transmission.fresh p.1.id p.2.id mint
    m = drawn.1 ∧ (Record.transmission m).accept tx.view = .ok () ∧ tx.mode = .readWrite ∧
      scene = { tx := tx.store (.transmission m), mint := drawn.2 } := by
  rw [send_apply p tx mint] at h
  split at h
  · cases h
  · cases h
  · rename_i haccept hmode
    cases h
    exact ⟨rfl, haccept, hmode, rfl⟩

/-- To send to a node that is there fails without a trace if the transaction may only read, or for
want of the info, or because the mint gives out an identifier that is taken. -/
theorem send_error {e : Error} {scene : Scene} (h : send p { tx, mint } = .error e scene)
    (hp : p.2.id ∈ tx.view.nodes) :
    (tx.mode = .readOnly ∧ scene.tx = tx) ∨
      (p.1.id ∉ tx.view.infos ∧ e = .missing (.info p.1.id)) ∨
        ∃ i, e = .duplicate (.transmission i) := by
  rw [send_apply p tx mint] at h
  split at h
  · rename_i haccept
    cases h
    exact .inr ((Record.accept_transmission_error haccept hp).imp_right fun h => ⟨_, h⟩)
  · rename_i hmode
    cases h
    exact .inl ⟨hmode, rfl⟩
  · cases h

/-- Of the pairs in `l`, all the nodes of which are there, the same holds: what was sent before has
not changed the nodes and the infos. -/
theorem mapM_send_error (l : List (Info × Node)) {e : Error} {scene : Scene}
    (h : l.mapM send { tx, mint } = .error e scene) (hl : ∀ p ∈ l, p.2.id ∈ tx.view.nodes) :
    (tx.mode = .readOnly ∧ scene.tx = tx) ∨
      (∃ p ∈ l, p.1.id ∉ tx.view.infos ∧ e = .missing (.info p.1.id)) ∨
        ∃ i, e = .duplicate (.transmission i) := by
  induction l generalizing tx mint with
  | nil => cases h
  | cons p l ih =>
    obtain ⟨hp, hl⟩ := List.forall_mem_cons.1 hl
    rw [List.mapM_cons] at h
    rcases Op.of_bind_error h with hfirst | ⟨m, s, hfirst, hrest⟩
    · exact (send_error hfirst hp).imp_right (.imp_left fun hmissing => ⟨p, .head l, hmissing⟩)
    · obtain ⟨-, -, hmode, rfl⟩ := eq_of_send_ok hfirst
      rcases Op.of_bind_error hrest with hrest | ⟨ms, s', -, hpure⟩
      · rcases ih hrest hl with ⟨hread, -⟩ | ⟨q, hq, hmissing⟩ | hduplicate
        · rw [show tx.mode = .readOnly from hread] at hmode
          cases hmode
        · exact .inr (.inl ⟨q, .tail p hq, hmissing⟩)
        · exact .inr (.inr hduplicate)
      · cases hpure

end Send

/-! ### Where all are stored -/

/-- For each pair in `l` a transmission that is pending was made, with the times that the clock
issued one after the other, and stored. -/
structure Dispatches (l : List (Info × Node)) (s s' : Scene) (ms : List Transmission) : Prop where
  ends : ms.map (fun m => (m.info, m.destination)) = l.map fun p => (p.1.id, p.2.id)
  pending : ∀ m ∈ ms, m.isPending
  issued : Clock.issue l.length s.mint.clock = (ms.map (·.transmitTime), s'.mint.clock)
  adds : s.tx.view.Adds ms s'.tx.view

/-- Where sending pairs succeeds, there is a transmission for each pair. -/
theorem mapM_send_dispatches {l : List (Info × Node)} {tx : Transaction} {mint : Mint}
    {ms : List Transmission} {s' : Scene} (h : l.mapM send { tx, mint } = .ok ms s') :
    Dispatches l { tx, mint } s' ms := by
  induction l generalizing tx mint ms with
  | nil =>
    cases h
    exact ⟨rfl, List.forall_mem_nil _, rfl, .nil _⟩
  | cons p l ih =>
    rw [List.mapM_cons] at h
    obtain ⟨m, s₁, hfirst, hrest⟩ := Op.of_bind_ok h
    obtain ⟨ms', s₂, hrest, hpure⟩ := Op.of_bind_ok hrest
    cases hpure
    obtain ⟨hm, haccept, -, rfl⟩ := eq_of_send_ok hfirst
    have hothers := ih hrest
    have hfree : tx.view.transmissions[m.id]? = none := by
      simpa [Tables.find?, Record.key] using Record.find?_of_accept haccept
    refine ⟨?_, List.forall_mem_cons.2 ⟨by rw [hm]; rfl, hothers.pending⟩, ?_,
      .cons hfree hothers.adds⟩
    · rw [List.map_cons, List.map_cons, hothers.ends, hm]
      rfl
    · have hissued : Clock.issue l.length mint.clock.now.2 =
          (ms'.map (·.transmitTime), s'.mint.clock) := hothers.issued
      rw [List.length_cons, Clock.issue_succ, List.map_cons, hm]
      exact congrArg (fun rest => (mint.clock.now.1 :: rest.1, rest.2)) hissued

end Node

/-! ## What is left behind -/

/-- From `tx` to `tx'`, no transmission has been stored. -/
structure Transaction.NoneSent (tx tx' : Transaction) : Prop where
  view : tx'.view.transmissions = tx.view.transmissions
  writes : ∀ i, .transmission i ∈ tx'.writes ↔ .transmission i ∈ tx.writes

/-- What a request `r` stores that does not deliver is no transmission. -/
theorem Request.ne_transmission_of_writes {r : Request} (hr : r.delivers = false)
    {tx : Transaction} {s : Record} (h : r.writes tx = some s) (m : Transmission) :
    s ≠ .transmission m := by
  rintro rfl
  rw [delivers, (writes_eq_some.1 h).1] at hr
  cases hr

/-- Requests that do not ask to store a transmission store none. -/
theorem Transaction.Becomes.noneSent {tx tx' : Transaction}
    (h : tx.Becomes (fun r => r.delivers = false) tx') : tx.NoneSent tx' where
  view := by
    apply h.view_induction (Q := fun t => t.transmissions = tx.view.transmissions)
    · intro r t s hr hw ht
      rw [Tables.transmissions_put_of_ne (Request.ne_transmission_of_writes hr hw), ht]
    · rfl
  writes i := by
    apply h.keeps (I := fun t => .transmission i ∈ t.writes ↔ .transmission i ∈ tx.writes)
    · intro r t hr ht
      rw [r.mem_writes_after, ht, or_iff_left]
      intro hwrites
      obtain ⟨s, hs, hkey⟩ := Option.map_eq_some_iff.1 hwrites
      cases s with
      | transmission m => exact Request.ne_transmission_of_writes hr hs m rfl
      | _ => cases hkey
    · exact .rfl

namespace World

variable {α : Type} {w : World α}

/-- If a node with one of these behaviors fails to send, it has sent nothing, unless the content
that was given names an info that is not stored, which is then what is missing, or the mint has
given out the identifier of a transmission that is stored already. -/
theorem Reachable.noneSent_of_transmit_error (h : w.Reachable) {name : Nat} {s : Session α}
    (hs : w.sessions name = some s) (n : Node) {b : Behavior} (hb : b.Provided)
    (c : Option Content) (r : Option Recipients) (mint : Mint) {e : Error} {scene : Scene}
    (herror : n.transmit b c r { tx := s.tx, mint } = .error e scene) :
    s.tx.NoneSent scene.tx ∨
      (∃ c', c = some c' ∧ ∃ i ∈ c'.named, i.id ∉ s.tx.view.infos ∧ e = .missing (.info i.id)) ∨
        ∃ i, e = .duplicate (.transmission i) := by
  have hkeyed := (h.sound.sessions name s hs).keyed_view
  have hclosed := h.closed_view hs
  have hread : ∀ r : Request, r.stored? = none → r.delivers = false := by
    intro r hr
    rw [Request.delivers, hr]
  have hplan := n.asks_plan hread hb.asks c r { tx := s.tx, mint }
  rcases Op.of_bind_error herror with hfail | ⟨l, s', hok, hsend⟩
  · rw [hfail] at hplan
    exact .inl hplan.noneSent
  · rw [hok] at hplan
    have hstored := Node.stored_of_plan hb hkeyed hclosed hok
    rcases Node.mapM_send_error l hsend fun p hp => (hstored p hp).1 with
      ⟨-, htx⟩ | ⟨p, hp, hno, he⟩ | hduplicate
    · rw [htx]
      exact .inl hplan.noneSent
    · rcases (hstored p hp).2 with hinfo | ⟨hview, c', hc, hnamed⟩
      · exact absurd hinfo hno
      · rw [show s'.tx.view = s.tx.view from hview] at hno
        exact .inr (.inl ⟨c', hc, p.1, hnamed, hno, he⟩)
    · exact .inr (.inr hduplicate)

/-- A node that is joined to another has stored one info and made a second one. -/
def parting : List Event :=
  [.begin 0 .readWrite .serializable, .ask 0 (.insert (.node (.numbered 0))),
    .ask 0 (.insert (.node (.numbered 1))), .ask 0 (.insert (.vector (.numbered 3 0 1))),
    .ask 0 (.insert (.info (.numbered 5 0)))]
where
  /-- The node sends both infos. -/
  send (tx : Transaction) : EStateM.Result Error Scene (List Transmission) :=
    (Node.numbered 0).transmit .plain
      (some (.many [.info (.numbered 5 0), .info (.numbered 6 0)]))
      (some (.node (.numbered 1))) { tx, mint := .still }

private theorem parting_run : ∃ s, (run .still parting).sessions 0 = some s ∧
    outcome (parting.send s.tx) = .error (.missing (.info ⟨6⟩)) ∧
    .transmission ⟨0⟩ ∈ (final (parting.send s.tx)).tx.writes ∧
    .transmission ⟨0⟩ ∉ s.tx.writes :=
  ⟨_, rfl, by decide +kernel, by decide +kernel, by decide +kernel⟩

/-- The second info is missed when the first one has been sent: a sending that fails may leave
transmissions behind. -/
theorem sent_in_part_parting : ∃ s, (run .still parting).sessions 0 = some s ∧
    outcome (parting.send s.tx) = .error (.missing (.info ⟨6⟩)) ∧
    ¬ s.tx.NoneSent (final (parting.send s.tx)).tx := by
  obtain ⟨s, hs, houtcome, hsent, hunsent⟩ := parting_run
  exact ⟨s, hs, houtcome, fun h => hunsent ((h.writes ⟨0⟩).1 hsent)⟩

/-- What stopped it is the info that was named without being stored. -/
theorem noneSent_of_transmit_error_parting : ∃ s, (run .still parting).sessions 0 = some s ∧
    ∃ e scene, parting.send s.tx = .error e scene ∧
      ∃ i ∈ [Info.numbered 5 0, .numbered 6 0], i.id ∉ s.tx.view.infos ∧
        e = .missing (.info i.id) := by
  obtain ⟨s, hs, houtcome, hsent, hunsent⟩ := parting_run
  have herror := Op.eq_error_of_outcome houtcome
  refine ⟨s, hs, _, _, herror, ?_⟩
  rcases Reachable.noneSent_of_transmit_error (reachable_run .still parting) hs (.numbered 0)
    .plain _ _ .still herror with hnone | ⟨c, hc, i, hi, hmissing⟩ | ⟨i, hi⟩
  · exact absurd ((hnone.writes ⟨0⟩).1 hsent) hunsent
  · cases hc
    exact ⟨i, hi, hmissing⟩
  · cases hi

end World

end Propagation
