import Propagation.Proofs.Edge
import Propagation.Proofs.Neighbourhood
import Propagation.Proofs.Ownership
import Propagation.Lifecycle

/-!
# What passes along vectors

Neither does a transmission name the vector along which it came, nor a vector what passed along it.
Both are searched for, in two ways that have nothing in common. For a vector, the transmissions to
its destination are joined with their infos, whose origin has to be that of the vector. For a
transmission, the index of what leaves the origin of its info is searched for vectors to its
destination, and one of these is taken: the oldest that is alive, and if all are dead the oldest.

The two searches agree. A vector lists the transmissions between its ends, whatever became of it, so
that parallel vectors list the same ones; and the vector that a transmission is said to have come
along, if there is one between these nodes at all, lists this transmission.

## Main definitions

* `Tables.Sent`, `Tables.Traffic`: a transmission from one node to another, and the list of all of
  them in their order.
* `Tables.Route`: what is answered when the vector from one node to another is asked for.

## Main statements

* `Tables.traffic_selectTransmissions`: what a vector lists.
* `Tables.route_selectVectors`: which vector is taken.
* `World.routes_agree`: in a history without twins, all this holds in every view.
-/

namespace Propagation

/-- Of the elements that pass the test `p`, the first one in a list that is strictly ordered comes
before all others. -/
theorem eq_or_lt_of_find? {α : Type} {cmp : α → α → Ordering} {p : α → Bool} {xs : List α} {x : α}
    (hxs : xs.Pairwise fun a b => cmp a b = .lt) (hx : xs.find? p = some x) :
    ∀ y ∈ xs, p y → y = x ∨ cmp x y = .lt := by
  intro y hy hpy
  obtain ⟨-, before, after, rfl, hbefore⟩ := List.find?_eq_some_iff_append.1 hx
  rcases List.mem_append.1 hy with hy | hy
  · have hnot := hbefore y hy
    rw [hpy] at hnot
    cases hnot
  · rcases List.mem_cons.1 hy with rfl | hy
    · exact .inl rfl
    · exact .inr ((List.pairwise_cons.1 (List.pairwise_append.1 hxs).2.1).1 y hy)

namespace Tables

/-! ## Transmissions between two nodes -/

/-- A stored transmission is addressed to `m`, and delivers a stored info that `n` authored. -/
structure Sent (t : Tables) (n m : NodeId) (c : Transmission) : Prop where
  stored : t.transmissions[c.id]? = some c
  origin : ∃ i, t.infos[c.info]? = some i ∧ i.origin = n
  destination : c.destination = m

/-- The transmissions from `n` to `m`, each once, in the order of their times and then of their
identifiers. -/
structure Traffic (t : Tables) (n m : NodeId) (found : List Transmission) : Prop where
  mem_iff : ∀ c, c ∈ found ↔ t.Sent n m c
  nodup : (found.map (·.id)).Nodup
  ordered : found.Pairwise fun c d => c.chronological d = .lt

/-- A search for the origin `n` and the destination `m` finds what was sent from `n` to `m`. -/
theorem traffic_selectTransmissions {t : Tables} (ht : t.Intact) (n m : NodeId) :
    t.Traffic n m (t.selectTransmissions { origin := some n, destination := some m }) := by
  have hid : ∀ (i : TransmissionId) c, t.transmissions[i]? = some c → c.id = i :=
    fun i c hc => (ht.transmission i c hc).1
  refine ⟨fun c => ?_, ?_, pairwise_selectTransmissions hid _⟩
  · rw [mem_selectTransmissions hid]
    simp only [TransmissionQuery.matches, Option.all_none, Option.all_some, Bool.not_false,
      Bool.true_or, Bool.true_and, Bool.and_true, Bool.and_eq_true, decide_eq_true_eq,
      Option.any_eq_true]
    constructor
    · rintro ⟨hstored, hdestination, horigin⟩
      exact ⟨hstored, horigin, hdestination⟩
    · rintro ⟨hstored, horigin, hdestination⟩
      exact ⟨hstored, hdestination, horigin⟩
  · rw [selectTransmissions, ((sort_perm _ _).map _).nodup_iff]
    exact (rows_nodup hid).sublist (List.filter_sublist.map _)

/-! ## The vector between two nodes -/

/-- What is answered when the vector from `n` to `m` is asked for: the oldest one that is alive; if
none is alive, the oldest of those that are dead; and if there is none, that it is not found. -/
inductive Route (t : Tables) (n m : NodeId) : Except Error Vector → Prop
  | alive {v : Vector} (h : t.SpansFirst .outgoing (some .alive) n m v) : Route t n m (.ok v)
  | dead {v : Vector} (hnone : ∀ w, ¬ t.Spans .outgoing (some .alive) n m w)
    (h : t.SpansFirst .outgoing (some .dead) n m v) : Route t n m (.ok v)
  | missing (hnone : ∀ w, ¬ t.Spans .outgoing none n m w) : Route t n m (.error (.noVector n m))

section Spans

variable {t : Tables} {side : Side} {status : Option VectorStatus} {s : VectorStatus}
  {n m : NodeId} {v : Vector}

/-- Vectors of the status `s` are the vectors that have it. -/
theorem spans_some_iff : t.Spans side (some s) n m v ↔ t.Spans side none n m v ∧ v.status = s :=
  ⟨fun h => ⟨h.anyStatus, h.status s rfl⟩, fun ⟨h, hs⟩ =>
    ⟨h.stored, h.near, h.across, fun _ hstatus => hs.trans (Option.some.inj hstatus)⟩⟩

/-- If the route from `n` to `m` is the vector `v`, this leads from `n` to `m`. -/
theorem Route.spans (h : t.Route n m (.ok v)) : t.Spans .outgoing none n m v := by
  cases h with
  | alive h => exact h.spans.anyStatus
  | dead _ h => exact h.spans.anyStatus

/-- If the vector `v` leads from `n` to `m`, the route is a vector. -/
theorem Route.exists_ok {r : Except Error Vector} (h : t.Route n m r)
    (hv : t.Spans .outgoing none n m v) : ∃ w, r = .ok w := by
  cases h with
  | alive => exact ⟨_, rfl⟩
  | dead => exact ⟨_, rfl⟩
  | missing hnone => exact absurd hv (hnone v)

end Spans

/-- Of what a search between `n` and `m` has `found`, the first that is alive is the route, or else
the first. -/
theorem route_selectVectors {t : Tables} (ht : t.Indexed) (n m : NodeId) {found : List Vector}
    (hfound : t.selectVectors { origin := some n, destination := some m } = found) :
    t.Route n m (((found.find? (·.isAlive)).or found.head?).elim (.error (.noVector n m)) .ok) := by
  have hmem : ∀ v, v ∈ found ↔ t.Spans .outgoing none n m v := fun v => by
    rw [← hfound]
    exact mem_selectVectors_between ht
  have hordered : found.Pairwise fun v w => v.chronological w = .lt := by
    rw [← hfound]
    exact (ht.finds_selectVectors _).ordered
  have hstatus : ∀ v : Vector, v.isAlive ↔ v.status = .alive := fun v => decide_eq_true_iff
  cases hlive : found.find? (·.isAlive) with
  | some v =>
    have hv := (hmem v).1 (List.mem_of_find?_eq_some hlive)
    refine .alive ⟨spans_some_iff.2 ⟨hv, (hstatus v).1 (List.find?_some hlive)⟩, fun w hw => ?_⟩
    obtain ⟨hw, halive⟩ := spans_some_iff.1 hw
    exact eq_or_lt_of_find? hordered hlive w ((hmem w).2 hw) ((hstatus w).2 halive)
  | none =>
    have hdead : ∀ w, t.Spans .outgoing none n m w → w.status ≠ .alive := fun w hw halive =>
      List.find?_eq_none.1 hlive w ((hmem w).2 hw) ((hstatus w).2 halive)
    cases found with
    | nil => exact .missing fun w hw => List.not_mem_nil ((hmem w).2 hw)
    | cons v rest =>
      have hv := (hmem v).1 (.head rest)
      have hvdead : v.status = .dead := by
        cases h : v.status with
        | alive => exact absurd h (hdead v hv)
        | dead => rfl
      refine .dead (fun w hw => ?_) ⟨spans_some_iff.2 ⟨hv, hvdead⟩, fun w hw => ?_⟩
      · obtain ⟨hw, halive⟩ := spans_some_iff.1 hw
        exact hdead w hw halive
      · rcases List.mem_cons.1 ((hmem w).2 hw.anyStatus) with rfl | hrest
        · exact .inl rfl
        · exact .inr ((List.pairwise_cons.1 hordered).1 w hrest)

end Tables

namespace World

/-- In every view of a history in which no key was given out twice, all vectors between two nodes
list what was sent from the one to the other, in its order. Of every stored transmission, the origin
of the stored info is found, and the route from there to the destination; and if that is a vector,
the vector lists the transmission. -/
theorem routes_agree {mint : Mint} {events : List Event} {name : Nat} {s : Session Trace}
    (hs : (run mint events).sessions name = some s) (hborn : (run mint events).BornOnce) :
    (∀ n m : NodeId, ∃ found, s.tx.view.Traffic n m found ∧
      ∀ v : Vector, v.origin = n → v.destination = m →
        v.transmissions.Answers s.tx (.ok found)) ∧
    ∀ c : Transmission, s.tx.view.transmissions[c.id]? = some c →
      ∃ i r, s.tx.view.infos[c.info]? = some i ∧ c.origin.Answers s.tx (.ok i.origin) ∧
        c.vector.Answers s.tx r ∧ s.tx.view.Route i.origin c.destination r ∧
        ((∃ v, s.tx.view.Spans .outgoing none i.origin c.destination v) → ∃ v found, r = .ok v ∧
          s.tx.view.Spans .outgoing none i.origin c.destination v ∧
          v.transmissions.Answers s.tx (.ok found) ∧ c ∈ found) := by
  have hindexed := indexed_view hs hborn
  have hintact := ((reachable_run mint events).referential_integrity.2 name s hs).1
  have hlists : ∀ n m : NodeId, ∃ found, s.tx.view.Traffic n m found ∧
      ∀ v : Vector, v.origin = n → v.destination = m →
        v.transmissions.Answers s.tx (.ok found) := by
    intro n m
    refine ⟨_, Tables.traffic_selectTransmissions hintact n m, ?_⟩
    rintro v rfl rfl
    exact Access.answers_transmissions _ s.tx
  refine ⟨hlists, fun c hc => ?_⟩
  obtain ⟨-, hinfo, -⟩ := hintact.transmission c.id c hc
  obtain ⟨i, hi⟩ := Option.isSome_iff_exists.1 (Std.ExtTreeMap.isSome_getElem?_iff_mem.2 hinfo)
  have hroute := Tables.route_selectVectors hindexed i.origin c.destination rfl
  refine ⟨i, _, hi, (Access.answers_require_of_some hi).map Info.origin,
    Transmission.answers_vector hi rfl, hroute, ?_⟩
  rintro ⟨u, hu⟩
  obtain ⟨v, hv⟩ := hroute.exists_ok hu
  rw [hv] at hroute
  obtain ⟨found, htraffic, hanswers⟩ := hlists i.origin c.destination
  exact ⟨v, found, hv, hroute.spans, hanswers v hroute.spans.near hroute.spans.across,
    (htraffic.mem_iff c).2 ⟨hc, ⟨i, hi, rfl⟩, rfl⟩⟩

/-- Three vectors lead from the first node to the second, of which the oldest dies, and two lead
back, which both die. Both nodes send to each other, the first one twice. The third node sends to
the first, to which no vector leads from it. -/
def ferry : List Event :=
  [.begin 0 .readWrite .serializable, .ask 0 (.insert (.node (.numbered 1))),
    .ask 0 (.insert (.node (.numbered 2))), .ask 0 (.insert (.node (.numbered 3))),
    .ask 0 (.insert (.vector (.numbered 4 1 2))), .ask 0 (.insert (.vector (.numbered 5 1 2))),
    .ask 0 (.insert (.vector (.numbered 6 1 2))), .ask 0 (.insert (.vector (.numbered 7 2 1))),
    .ask 0 (.insert (.vector (.numbered 8 2 1))), .ask 0 (.insert (.info (.numbered 9 1))),
    .ask 0 (.insert (.info (.numbered 10 2))), .ask 0 (.insert (.info (.numbered 11 3))),
    .commit 0, .begin 1 .readWrite .serializable,
    .ask 1 (.insert (.transmission (freight 12 9 2))),
    .ask 1 (.insert (.transmission (freight 13 9 2))),
    .ask 1 (.insert (.transmission (freight 14 10 1))),
    .ask 1 (.insert (.transmission (freight 15 11 1))),
    .ask 1 (.revise (dead 4 1 2)), .ask 1 (.revise (dead 7 2 1)), .ask 1 (.revise (dead 8 2 1))]
where
  freight (n info destination : Nat) : Transmission :=
    { id := ⟨.ofNat 128 n⟩, info := ⟨.ofNat 128 info⟩, destination := ⟨.ofNat 128 destination⟩
      transmitTime := .ofMoment .first }
  dead (n origin destination : Nat) : Revision :=
    .vector { Vector.numbered n origin destination with status := .dead }

/-- The dead vector lists what its live parallels list, and what was sent came along the older of
these. On the way back it came along the older of the dead vectors, and what the third node sent
came along none. -/
theorem routes_agree_ferry : ∃ s, (run .still ferry).sessions 1 = some s ∧
    (∃ found, s.tx.view.Traffic ⟨1⟩ ⟨2⟩ found ∧
      (Vector.numbered 4 1 2).transmissions.Answers s.tx (.ok found) ∧
      (Vector.numbered 5 1 2).transmissions.Answers s.tx (.ok found) ∧
      found.map (·.id) = [⟨12⟩, ⟨13⟩]) ∧
    (∃ v, (ferry.freight 13 9 2).vector.Answers s.tx (.ok v) ∧ v.id = ⟨5⟩) ∧
    (∃ v, (ferry.freight 14 10 1).vector.Answers s.tx (.ok v) ∧ v.id = ⟨7⟩) ∧
    ∃ e, (ferry.freight 15 11 1).vector.Answers s.tx (.error e) ∧ e.kind = .topic .notFound := by
  obtain ⟨s, hs⟩ : ∃ s, (run .still ferry).sessions 1 = some s := ⟨_, rfl⟩
  have hborn : (run .still ferry).BornOnce := by decide +kernel
  -- The view is computed once; what follows is about any session with these answers.
  have hview : ∀ s ∈ (run .still ferry).sessions 1,
      (∀ c ∈ [ferry.freight 13 9 2, ferry.freight 14 10 1, ferry.freight 15 11 1],
        s.tx.view.transmissions[c.id]? = some c) ∧
      (outcome ((Vector.numbered 4 1 2).transmissions s.tx)).map (List.map (·.id)) =
        .ok [⟨12⟩, ⟨13⟩] ∧
      (outcome ((ferry.freight 13 9 2).vector s.tx)).map (·.id) = .ok ⟨5⟩ ∧
      (outcome ((ferry.freight 14 10 1).vector s.tx)).map (·.id) = .ok ⟨7⟩ ∧
      outcome ((ferry.freight 15 11 1).vector s.tx) = .error (.noVector ⟨3⟩ ⟨1⟩) := by
    decide +kernel
  obtain ⟨hstored, hids, hlive, hdead, hnone⟩ := hview s hs
  simp only [List.forall_mem_cons] at hstored
  obtain ⟨hfirst, hsecond, hthird, -⟩ := hstored
  obtain ⟨hlists, hroutes⟩ := routes_agree hs hborn
  obtain ⟨found, htraffic, hfound⟩ := hlists ⟨1⟩ ⟨2⟩
  have hfour := hfound (.numbered 4 1 2) rfl rfl
  obtain ⟨-, r, -, -, hr, -⟩ := hroutes _ hfirst
  obtain ⟨-, r', -, -, hr', -⟩ := hroutes _ hsecond
  obtain ⟨-, r'', -, -, hr'', -⟩ := hroutes _ hthird
  rw [hfour.outcome] at hids
  rw [hr.outcome] at hlive
  rw [hr'.outcome] at hdead
  obtain rfl := hr''.outcome.symm.trans hnone
  obtain ⟨v, rfl⟩ : ∃ v, r = .ok v := by cases r <;> first | cases hlive | exact ⟨_, rfl⟩
  obtain ⟨v', rfl⟩ : ∃ v, r' = .ok v := by cases r' <;> first | cases hdead | exact ⟨_, rfl⟩
  exact ⟨s, hs, ⟨found, htraffic, hfour, hfound (.numbered 5 1 2) rfl rfl, Except.ok.inj hids⟩,
    ⟨v, hr, Except.ok.inj hlive⟩, ⟨v', hr', Except.ok.inj hdead⟩, _, hr'', rfl⟩

end World

end Propagation
