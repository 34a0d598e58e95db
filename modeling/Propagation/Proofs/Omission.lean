import Propagation.Proofs.Deletion

/-!
# Refused records may be left out

To store a record is one step. Either the record is taken and its key noted, or the request is
refused and the transaction is what it was, in its tables and indexes as well as in its accounts and
messages. So all that was refused can be left out of a course of events, whatever else was done in
between, in this transaction and in others: nothing else is answered differently, and whatever is
committed then or later is the same.

It is otherwise with the operations that are made of several requests. What they stored before one
of them was refused stays stored.

## Main definitions

* `Deed`, `Reply`: what can be done in a world, operations included, and what is answered.
* `World.transcript`: a course of events with all that was answered.
* `World.refused`, `World.heeded`: the requests to store that were refused, and what is left without
  them or some of them.
* `World.forget`: a world without the notes of its sessions.

## Main statements

* `World.reply_eq_of_forget`, `World.forget_act_congr`: notes do not matter.
* `World.forget_act_of_refused`: a refusal changes nothing but the notes.
* `World.transcript_heeded`: two courses of events side by side.
* `World.refusals_omitted`: refusals may be left out.
-/

namespace Propagation

/-- What can be done in a world: an event, or an operation in an open transaction. -/
inductive Deed : Type 1
  | event (e : Event)
  | operate (name : Nat) {β : Type} (op : Op β)

/-- What is answered. -/
inductive Reply : Type 1
  | event (r : Response)
  | outcome {β : Type} (answer : Except Error β)
  /-- There was no transaction in which to operate. -/
  | closed

/-- The session `s` without its note. -/
def Session.forget {α : Type} (s : Session α) : Session Unit :=
  { start := s.start, tx := s.tx, note := (), began := s.began }

namespace World

/-- The world `w` without the notes of its sessions. -/
def forget {α : Type} (w : World α) : World Unit where
  store := w.store
  sessions name := (w.sessions name).map Session.forget
  log := w.log.map Session.forget

/-- What is answered to a deed in the world `w`. -/
def reply (w : World Trace) : Deed → Reply
  | .event e => .event (w.response e)
  | .operate name op =>
    (w.sessions name).elim .closed fun s => .outcome (w.store.run op s.tx).1.1

/-- The world after a deed in the world `w`. -/
def act (w : World Trace) : Deed → World Trace
  | .event e => w.step e
  | .operate name op => w.use name op fun _ note => note

/-- The `deeds` in the world `w`, each with what was answered. -/
def transcript (w : World Trace) : List Deed → List (Deed × Reply)
  | [] => []
  | d :: deeds => (d, w.reply d) :: transcript (w.act d) deeds

/-- The deed is a request to store a record, new or revised, that was refused. -/
def refused : Deed × Reply → Bool
  | (.event (.ask _ r), .event (.answered (.error _))) => r.stored?.isSome
  | _ => false

/-- The deed is one of the `chosen` ones, and was refused. -/
def omits (chosen : Deed → Bool) (p : Deed × Reply) : Bool := chosen p.1 && refused p

/-- What is left of `deeds` without the `chosen` requests to store that were refused. -/
def heeded (chosen : Deed → Bool) (w : World Trace) (deeds : List Deed) : List Deed :=
  ((w.transcript deeds).filter (!omits chosen ·)).map Prod.fst

/-! ## Notes do not matter -/

section Forget

variable {α β : Type} (w : World α)

theorem forget_put (name : Nat) (s : Option (Session α)) :
    (w.put name s).forget = w.forget.put name (s.map Session.forget) := by
  have hsessions : (fun i => (Function.update w.sessions name s i).map Session.forget) =
      Function.update (fun i => (w.sessions i).map Session.forget) name (s.map Session.forget) := by
    funext i
    simp only [Function.update_apply]
    split <;> rfl
  rw [put, put, forget, forget]
  simp only [hsessions]

theorem forget_begin (name : Nat) (mode : TxMode) (isolation : Isolation) (note : α) :
    (w.begin name mode isolation note).forget = w.forget.begin name mode isolation () := by
  rw [begin, begin, forget_put]
  simp only [forget, List.length_map]
  rfl

theorem forget_aside (f : Store → Store) : (w.aside f).forget = w.forget.aside f := rfl

theorem forget_use (name : Nat) (op : Op β) (remark : Except Error β → α → α) :
    (w.use name op remark).forget = w.forget.use name op fun _ note => note := by
  have hsessions : w.forget.sessions name = (w.sessions name).map Session.forget := rfl
  rw [use, use, hsessions]
  cases w.sessions name with
  | none => rfl
  | some s => exact forget_put _ name _

theorem forget_commit (name : Nat) : (w.commit name).forget = w.forget.commit name := by
  have hsessions : w.forget.sessions name = (w.sessions name).map Session.forget := rfl
  rw [commit, commit, hsessions]
  cases w.sessions name with
  | none => rfl
  | some s =>
    have hcommit : w.forget.store.commit s.forget.tx = w.store.commit s.tx := rfl
    rw [Option.map_some]
    simp only [hcommit]
    cases hc : w.store.conflicts s.tx with
    | true =>
      simp only [Store.commit_of_conflicts hc]
      exact forget_put _ name none
    | false =>
      simp only [Store.commit_of_not_conflicts hc, forget_put]
      simp only [forget, List.map_append]
      rfl

end Forget

section Congruence

variable {w w' : World Trace} (h : w.forget = w'.forget)
include h

theorem store_eq_of_forget : w.store = w'.store := by
  have hstore : w.forget.store = w'.forget.store := congrArg World.store h
  exact hstore

/-- Sessions of `w` and `w'` that differ in their notes only have the same transaction. -/
theorem tx_eq_of_forget (name : Nat) :
    (w.sessions name).map Session.tx = (w'.sessions name).map Session.tx := by
  have hsessions : (w.forget.sessions name).map Session.tx =
      (w'.forget.sessions name).map Session.tx := by rw [h]
  rwa [forget, forget, Option.map_map, Option.map_map] at hsessions

/-- What `f` makes of the transaction of a session does not depend on the notes. -/
theorem elim_eq_of_forget {γ : Type*} (name : Nat) (closed : γ) (f : Transaction → γ) :
    ((w.sessions name).elim closed fun s => f s.tx) =
      (w'.sessions name).elim closed fun s => f s.tx := by
  have htx := congrArg (Option.elim · closed f) (tx_eq_of_forget h name)
  simp only [Option.elim_map] at htx
  exact htx

/-- What is answered to the deed `d` does not depend on the notes. -/
theorem reply_eq_of_forget (d : Deed) : w.reply d = w'.reply d := by
  have hstore := store_eq_of_forget h
  cases d with
  | operate name op =>
    rw [reply, reply, hstore]
    exact elim_eq_of_forget h name Reply.closed fun tx => .outcome (w'.store.run op tx).1.1
  | event e =>
    refine congrArg Reply.event ?_
    cases e with
    | begin name mode isolation => rw [response, response, hstore]
    | ask name r => exact elim_eq_of_forget h name Response.done fun tx => .answered (r.answer tx)
    | commit name =>
      rw [response, response, hstore]
      exact elim_eq_of_forget h name Response.done fun tx => .ended (w'.store.commit tx).1
    | rollback name => rfl
    | subscribe log => rfl
    | drain log => rw [response, response, hstore]

/-- What the deed `d` makes of a world does not depend on the notes, except for the notes. -/
theorem forget_act_congr (d : Deed) : (w.act d).forget = (w'.act d).forget := by
  cases d with
  | operate name op => rw [act, act, forget_use, forget_use, h]
  | event e =>
    cases e with
    | begin name mode isolation =>
      rw [act, act, step, step, forget_begin, forget_begin, h]
    | ask name r => rw [act, act, step, step, forget_use, forget_use, h]
    | commit name => rw [act, act, step, step, forget_commit, forget_commit, h]
    | rollback name => rw [act, act, step, step, rollback, rollback, forget_put, forget_put, h]
    | subscribe log => rw [act, act, step, step, forget_aside, forget_aside, h]
    | drain log => rw [act, act, step, step, forget_aside, forget_aside, h]

end Congruence

/-! ## Refusals -/

/-- A request `r` that is refused changes nothing at all, if it is not noted. -/
theorem use_of_error {α : Type} {w : World α} {name : Nat} {s : Session α}
    (hs : w.sessions name = some s) {r : Request} {e : Error} (hr : r.answer s.tx = .error e) :
    (w.use name (Op.access r.perform) fun _ note => note) = w := by
  have hsame : r.perform s.tx = .error e s.tx := by
    rw [Request.perform_apply, Request.check_of_answer_error hr]
  have hrun : w.store.run (Op.access r.perform) s.tx = ((.error e, s.tx), w.store) := by
    rw [Store.run, Op.access]
    simp only [hsame]
  rw [use, hs]
  simp only [hrun, put]
  rw [← hs, Function.update_eq_self]

/-- A deed `d` that is refused changes nothing but the notes. -/
theorem forget_act_of_refused {w : World Trace} {d : Deed} (h : refused (d, w.reply d)) :
    (w.act d).forget = w.forget := by
  cases d with
  | operate name op => cases h
  | event e =>
    cases e with
    | ask name r =>
      rw [reply, response] at h
      cases hs : w.sessions name with
      | none => rw [hs] at h; cases h
      | some s =>
        rw [hs] at h
        cases hr : r.answer s.tx with
        | ok a => rw [Option.elim_some, hr] at h; cases h
        | error e =>
          have hforget : w.forget.sessions name = some s.forget := congrArg (Option.map _) hs
          rw [act, step, forget_use]
          exact use_of_error hforget hr
    | _ => cases h

/-- Let `w` and `w'` differ in their notes only, where the `chosen` requests to store that are
refused in `w` are not made in `w'`: all other answers are the same, and so is what there is in the
end. -/
theorem transcript_heeded (chosen : Deed → Bool) {w w' : World Trace} (h : w.forget = w'.forget)
    (deeds : List Deed) :
    w'.transcript (w.heeded chosen deeds) = (w.transcript deeds).filter (!omits chosen ·) ∧
      ((w.heeded chosen deeds).foldl act w').forget = (deeds.foldl act w).forget := by
  induction deeds generalizing w w' with
  | nil => exact ⟨rfl, h.symm⟩
  | cons d deeds ih =>
    cases hd : omits chosen (d, w.reply d) with
    | true =>
      have hrefused : refused (d, w.reply d) := (Bool.and_eq_true_iff.1 hd).2
      have hheeded : w.heeded chosen (d :: deeds) = (w.act d).heeded chosen deeds := by
        rw [heeded, transcript, List.filter_cons_of_neg (by simp [hd]), heeded]
      rw [hheeded, transcript, List.filter_cons_of_neg (by simp [hd])]
      exact ih ((forget_act_of_refused hrefused).trans h)
    | false =>
      have hheeded : w.heeded chosen (d :: deeds) = d :: (w.act d).heeded chosen deeds := by
        rw [heeded, transcript, List.filter_cons_of_pos (by simp [hd]), heeded, List.map_cons]
      obtain ⟨htranscript, hend⟩ := ih (forget_act_congr h d)
      rw [hheeded, transcript, transcript, htranscript, List.filter_cons_of_pos (by simp [hd]),
        reply_eq_of_forget h]
      exact ⟨rfl, hend⟩

/-- A record that is refused, as a new one or as a new version, leaves the transaction as it was,
with all its tables and indexes, accounts and messages. So wherever a course of events begins, and
whatever else it is made of, the requests to store that are refused may be left out of it, all of
them or those of some transactions: everything else is answered the same, the store and all open
transactions end the same, and so does each of these if it is committed. -/
theorem refusals_omitted :
    (∀ (r : Record) (tx tx' : Transaction) (e : Error),
      Access.insert r tx = .error e tx' → tx' = tx) ∧
    (∀ (r : Revision) (tx tx' : Transaction) (e : Error),
      Access.revise r tx = .error e tx' → tx' = tx) ∧
    ∀ (chosen : Deed → Bool) (w : World Trace) (deeds : List Deed),
      let whole := deeds.foldl act w
      let rest := (w.heeded chosen deeds).foldl act w
      w.transcript (w.heeded chosen deeds) = (w.transcript deeds).filter (!omits chosen ·) ∧
      rest.store = whole.store ∧
      ∀ name, (rest.sessions name).map (fun s => (s.tx, rest.store.commit s.tx)) =
        (whole.sessions name).map fun s => (s.tx, whole.store.commit s.tx) := by
  refine ⟨fun r tx tx' e h => Access.recordIf_error h, fun r tx tx' e h => Access.recordIf_error h,
    fun chosen w deeds => ?_⟩
  intro whole rest
  obtain ⟨htranscript, hend⟩ := transcript_heeded chosen (rfl : w.forget = w.forget) deeds
  have hstore : rest.store = whole.store := store_eq_of_forget hend
  refine ⟨htranscript, hstore, fun name => ?_⟩
  have hends :=
    congrArg (Option.map fun tx => (tx, whole.store.commit tx)) (tx_eq_of_forget hend name)
  rw [Option.map_map, Option.map_map] at hends
  rw [hstore]
  exact hends

/-- The transaction that may not write is refused once. -/
example : ((init .still).heeded (fun _ => true) (turmoil.map .event)).length + 1 =
    turmoil.length := by
  decide +kernel

end World

end Propagation
