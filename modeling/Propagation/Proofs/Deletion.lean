import Propagation.Proofs.Publication
import Mathlib.Tactic.IntervalCases

/-!
# Transactions that may be deleted

A transaction that is not committed leaves nothing behind, however much was done in it, and neither
does one that may not write and queued no messages, however it ended. All its steps may be deleted
from a history: the steps that remain are answered as before, and what they make of the committed
records and of the logs is the same. Only the numbers of the transactions move up, and the mint may
be another one.

Names may be used again in a history, and so a transaction is told by its place: it is the first,
the second, and so on of those that began. What is asked under a name belongs to the transaction
that was the last to begin under it.

## Main definitions

* `Roster`: how many transactions began, and who was the last under each name.
* `Roster.spared`: what is left of a list along a history when some transactions are deleted.
* `Shown`: what a store shows outside of its transactions.
* `World.response`, `World.watch`: what an event is answered, and all that is seen of a history.
* `World.Commits`: a transaction of a history is committed.

## Main statements

* `Request.answer_unnumbered`, `Request.after_unnumbered`: no answer depends on the number of the
  transaction, but for the errors that tell it.
* `World.shown_step_of_not_spares`: no step of a transaction that is deleted is seen.
* `World.watch_spared`: deleting them leaves what is seen of all others.
-/

namespace Propagation

open Std (ExtTreeMap)

/-! ## Whose step it is -/

/-- How many transactions began, and which of them was the last under each name. -/
structure Roster where
  begun : Nat := 0
  holder : Nat → Option Nat := fun _ => none

namespace Roster

/-- The roster after the event. -/
def next (r : Roster) : Event → Roster
  | .begin name _ _ => { begun := r.begun + 1, holder := Function.update r.holder name r.begun }
  | _ => r

theorem holder_next_begin (r : Roster) (name i : Nat) (mode : TxMode) (isolation : Isolation) :
    (r.next (.begin name mode isolation)).holder i =
      if i = name then some r.begun else r.holder i := Function.update_apply ..

/-- The place of the transaction to which the event belongs. -/
def owner (r : Roster) : Event → Option Nat
  | .begin .. => some r.begun
  | .ask name _ | .commit name | .rollback name => r.holder name
  | .subscribe _ | .drain _ => none

/-- The event `e` belongs to none of the transactions that are `deleted`. -/
def spares (deleted : Nat → Bool) (r : Roster) (e : Event) : Bool := (r.owner e).all (!deleted ·)

theorem spares_eq_false_iff {deleted : Nat → Bool} {r : Roster} {e : Event} :
    r.spares deleted e = false ↔ ∃ i, r.owner e = some i ∧ deleted i := by
  rw [spares]
  cases r.owner e <;> simp

/-- What is left of a list along a history, without the places of the transactions that are
`deleted`. -/
def spared {α : Type} (deleted : Nat → Bool) (r : Roster) : List Event → List α → List α
  | e :: events, a :: as =>
    if r.spares deleted e then a :: spared deleted (r.next e) events as
    else spared deleted (r.next e) events as
  | _, _ => []

end Roster

/-! ## What is seen -/

/-- What a store shows outside of its transactions. -/
structure Shown where
  committed : Committed
  subscriptions : List String
  logs : ExtTreeMap String (List Message)

/-- What the store `s` shows outside of its transactions. -/
def Store.shown (s : Store) : Shown where
  committed := s.committed
  subscriptions := s.subscriptions
  logs := s.logs

/-- The error without the number of the transaction. -/
def Error.unnumbered : Error → Error
  | readOnly _ => readOnly ⟨0⟩
  | conflict _ => conflict ⟨0⟩
  | e => e

/-- The transaction without its number. -/
def Transaction.unnumbered (tx : Transaction) : Transaction := { tx with id := ⟨0⟩ }

/-- What an event is answered. -/
inductive Response
  | done
  | begun (tx : Transaction)
  | answered (answer : Except Error Answer)
  | ended (answer : Except Error Unit)
  | drained (messages : Option (List Message))

/-- The response without the number of the transaction. -/
def Response.unnumbered : Response → Response
  | begun tx => begun tx.unnumbered
  | answered a => answered (a.mapError Error.unnumbered)
  | ended a => ended (a.mapError Error.unnumbered)
  | r => r

/-- What is seen of an event: the `Response`, but for the number of the transaction, and what the
store shows afterwards. -/
structure Sight where
  response : Response
  shown : Shown

namespace World

/-- What the event is answered in the world `w`. -/
def response (w : World Trace) : Event → Response
  | .begin _ mode isolation => .begun (w.store.begin mode isolation).1
  | .ask name r => (w.sessions name).elim .done fun s => .answered (r.answer s.tx)
  | .commit name => (w.sessions name).elim .done fun s => .ended (w.store.commit s.tx).1
  | .rollback _ | .subscribe _ => .done
  | .drain log => .drained ((w.store.drain? log).map Prod.fst)

/-- What is seen of the event `e` in the world `w`. -/
def sight (w : World Trace) (e : Event) : Sight where
  response := (w.response e).unnumbered
  shown := (w.step e).store.shown

/-- What is seen of the events of a history that goes on in the world `w`. -/
def watch (w : World Trace) : List Event → List Sight
  | [] => []
  | e :: events => w.sight e :: watch (w.step e) events

/-- In a history, the transaction with the place `i` is committed as the session `s`. -/
def Commits (r : Roster) (w : World Trace) (events : List Event) (i : Nat) (s : Session Trace) :
    Prop :=
  ∃ n name, events[n]? = some (.commit name) ∧
    ((events.take n).foldl Roster.next r).holder name = some i ∧
    ((events.take n).foldl step w).sessions name = some s ∧
    (((events.take n).foldl step w).store.commit s.tx).1 = .ok ()

end World

/-! ## The number of a transaction -/

namespace Request

theorem unnumbered_of_requireAll {t : Tables} {keys : List Key} {e : Error}
    (h : t.requireAll keys = .error e) : e.unnumbered = e := by
  rw [Tables.requireAll] at h
  split at h <;> cases h
  rfl

/-- What does not fit the tables is refused without a word about the transaction, as `unnumbered`
has it. -/
theorem unnumbered_of_accept {r : Request} {t : Tables} {e : Error} (h : r.accept t = .error e) :
    e.unnumbered = e := by
  cases r with
  | insert s =>
    rw [accept, Record.accept] at h
    split at h
    · cases h
      rfl
    · exact unnumbered_of_requireAll h
  | revise s =>
    rw [accept] at h
    cases s <;> simp only [Revision.accept, Revision.acceptNode, Revision.acceptVector,
      Revision.acceptInfo, Revision.acceptTransmission] at h
    all_goals
      repeat' split at h
      all_goals first
        | exact unnumbered_of_requireAll h
        | (cases h; rfl)
        | cases h
  | _ => cases h

theorem check_unnumbered (r : Request) (tx : Transaction) :
    (r.check tx).mapError Error.unnumbered = r.check tx.unnumbered := by
  rw [check, check]
  cases r.stored? with
  | none => rfl
  | some s =>
    have hview : tx.unnumbered.view = tx.view := rfl
    have hmode : tx.unnumbered.mode = tx.mode := rfl
    rw [hview, hmode]
    cases ha : r.accept tx.view with
    | error e => exact congrArg Except.error (unnumbered_of_accept ha)
    | ok u => cases tx.mode <;> rfl

/-- The answer to `r` depends on the number of the transaction only where an error tells it. -/
theorem answer_unnumbered (r : Request) (tx : Transaction) :
    (r.answer tx).mapError Error.unnumbered = r.answer tx.unnumbered := by
  rw [answer_eq, answer_eq, ← check_unnumbered]
  cases r.check tx <;> rfl

/-- What `r` makes of a transaction does not depend on its number. -/
theorem after_unnumbered (r : Request) (tx : Transaction) :
    (r.after tx).unnumbered = r.after tx.unnumbered := by
  have hcheck := check_unnumbered r tx
  cases hc : r.check tx with
  | error e =>
    rw [hc] at hcheck
    rw [after_of_error hc, after_of_error hcheck.symm]
  | ok u =>
    rw [hc] at hcheck
    rw [after_of_ok hc, after_of_ok hcheck.symm]
    cases r <;> simp only [note] <;> (try split) <;> rfl

end Request

namespace Store

variable {s s' : Store} {tx tx' : Transaction}

theorem conflicts_unnumbered (tx : Transaction) (s : Store) :
    s.conflicts tx.unnumbered = s.conflicts tx := rfl

theorem conflicts_congr (hs : s.shown = s'.shown) (tx : Transaction) :
    s.conflicts tx = s'.conflicts tx := by
  rw [conflicts, conflicts, show s.committed = s'.committed from congrArg Shown.committed hs]

/-- How the commit of `tx` ends, and what it leaves, is decided by what the store shows and by what
was done in the transaction. -/
theorem commit_congr (hs : s.shown = s'.shown) (htx : tx.unnumbered = tx'.unnumbered) :
    (s.commit tx).1.mapError Error.unnumbered = (s'.commit tx').1.mapError Error.unnumbered ∧
      (s.commit tx).2.shown = (s'.commit tx').2.shown := by
  have hconflicts : s.conflicts tx = s'.conflicts tx' := by
    rw [← conflicts_unnumbered, htx, conflicts_unnumbered, conflicts_congr hs]
  cases hc : s'.conflicts tx' with
  | true =>
    rw [commit_of_conflicts hc, commit_of_conflicts (hconflicts.trans hc)]
    exact ⟨rfl, hs⟩
  | false =>
    rw [commit_of_not_conflicts hc, commit_of_not_conflicts (hconflicts.trans hc)]
    obtain ⟨c, mint, begun, subscriptions, logs⟩ := s
    obtain ⟨c', mint', begun', subscriptions', logs'⟩ := s'
    simp only [shown, Shown.mk.injEq] at hs
    obtain ⟨rfl, rfl, rfl⟩ := hs
    have hpublished : (publish tx.unnumbered.outbox ⟨c.apply tx.unnumbered, mint, begun,
        subscriptions, logs⟩).shown =
      (publish tx'.unnumbered.outbox ⟨c.apply tx'.unnumbered, mint', begun', subscriptions,
        logs⟩).shown := by rw [htx]; rfl
    exact ⟨rfl, hpublished⟩

theorem subscribe_congr (hs : s.shown = s'.shown) (log : String) :
    (s.subscribe log).shown = (s'.subscribe log).shown := by
  obtain ⟨c, mint, begun, subscriptions, logs⟩ := s
  obtain ⟨c', mint', begun', subscriptions', logs'⟩ := s'
  simp only [shown, Shown.mk.injEq] at hs
  obtain ⟨rfl, rfl, rfl⟩ := hs
  rfl

theorem drain_congr (hs : s.shown = s'.shown) (log : String) :
    (s.drain? log).map Prod.fst = (s'.drain? log).map Prod.fst ∧
      (World.drain log s).shown = (World.drain log s').shown := by
  obtain ⟨c, mint, begun, subscriptions, logs⟩ := s
  obtain ⟨c', mint', begun', subscriptions', logs'⟩ := s'
  simp only [shown, Shown.mk.injEq] at hs
  obtain ⟨rfl, rfl, rfl⟩ := hs
  simp only [World.drain, drain?, messages?]
  cases logs[log]? <;> exact ⟨rfl, rfl⟩

/-- What is done in a transaction is not shown before it is committed. -/
theorem shown_run {α : Type} (op : Op α) (tx : Transaction) (s : Store) :
    (s.run op tx).2.shown = s.shown := by
  unfold run
  split <;> rfl

end Store

namespace World

/-- The transaction that is open under `name`, without its number. -/
def tx? (w : World Trace) (name : Nat) : Option Transaction :=
  (w.sessions name).map (·.tx.unnumbered)

variable {w w' : World Trace}

theorem tx?_put (name i : Nat) (s : Option (Session Trace)) (w : World Trace) :
    (w.put name s).tx? i = if i = name then s.map (·.tx.unnumbered) else w.tx? i := by
  change (Function.update w.sessions name s i).map _ = _
  rw [Function.update_apply]
  split <;> rfl

theorem tx?_ask (name i : Nat) (r : Request) (w : World Trace) :
    (w.step (.ask name r)).tx? i = if i = name then (w.tx? name).map r.after else w.tx? i := by
  cases hs : w.sessions name with
  | none =>
    have hnone : w.tx? name = none := by rw [tx?, hs, Option.map_none]
    have hstep : w.step (.ask name r) = w := by rw [step, use, hs]
    rw [hstep, hnone, Option.map_none]
    by_cases hi : i = name
    · rw [if_pos hi, hi, hnone]
    · rw [if_neg hi]
  | some s =>
    have hsome : w.tx? name = some s.tx.unnumbered := by rw [tx?, hs, Option.map_some]
    rw [hsome, Option.map_some, ← Request.after_unnumbered]
    have hstep : (w.step (.ask name r)).sessions = Function.update w.sessions name
        (some (w.used (Op.access r.perform) (fun answer note => note ++ [(r, answer)]) s)) := by
      rw [step, use, hs, used, ← tx_run, ← answer_run]
      rfl
    rw [tx?, hstep, used_ask]
    exact tx?_put name i _ w

theorem tx?_commit (name i : Nat) (w : World Trace) :
    (w.commit name).tx? i = if i = name then none else w.tx? i := by
  rw [commit]
  cases hs : w.sessions name with
  | none =>
    by_cases hi : i = name
    · subst hi
      rw [if_pos rfl, tx?, hs, Option.map_none]
    · rw [if_neg hi]
  | some s =>
    cases hc : w.store.conflicts s.tx with
    | true =>
      simp only [Store.commit_of_conflicts hc]
      exact tx?_put name i none _
    | false =>
      simp only [Store.commit_of_not_conflicts hc]
      exact tx?_put name i none _

/-! ## Two histories side by side -/

/-- The world `w'`, in which the transactions in `deleted` are left out, stands beside the world `w`
of the whole history. -/
structure Beside (deleted : Nat → Bool) (r : Roster) (w w' : World Trace) : Prop where
  shown : w'.store.shown = w.store.shown
  tx : ∀ name, (r.holder name).all (!deleted ·) → w'.tx? name = w.tx? name

theorem store_commit {name : Nat} {s : Session Trace} (hs : w.sessions name = some s) :
    (w.commit name).store = (w.store.commit s.tx).2 := by
  rw [commit, hs]
  cases hc : w.store.conflicts s.tx with
  | true => simp only [Store.commit_of_conflicts hc]; rfl
  | false => simp only [Store.commit_of_not_conflicts hc]; rfl

theorem tx?_begin (name i : Nat) (mode : TxMode) (isolation : Isolation) (w : World Trace) :
    (w.step (.begin name mode isolation)).tx? i =
      if i = name then some (w.store.begin mode isolation).1.unnumbered else w.tx? i :=
  tx?_put name i _ _

theorem shown_ask (name : Nat) (r : Request) (w : World Trace) :
    (w.step (.ask name r)).store.shown = w.store.shown := by
  rw [step, use]
  cases hs : w.sessions name with
  | none => rfl
  | some s => exact Store.shown_run _ s.tx w.store

theorem unnumbered_response_ask (name : Nat) (r : Request) (w : World Trace) :
    (w.response (.ask name r)).unnumbered =
      (w.tx? name).elim .done fun tx => .answered (r.answer tx) := by
  rw [response, tx?]
  cases w.sessions name with
  | none => rfl
  | some s => exact congrArg Response.answered (Request.answer_unnumbered r s.tx)

namespace Beside

variable {deleted : Nat → Bool} {r : Roster} {e : Event}

/-- A step `e` that is spared looks the same in `w` and `w'`. -/
theorem sight_eq (h : Beside deleted r w w') (he : r.spares deleted e) :
    w'.sight e = w.sight e := by
  have hcommitted : w'.store.committed = w.store.committed := congrArg Shown.committed h.shown
  rw [sight, sight, Sight.mk.injEq]
  cases e with
  | begin name mode isolation =>
    refine ⟨?_, h.shown⟩
    simp only [response, Response.unnumbered, Store.begin, Transaction.unnumbered, hcommitted]
  | ask name q =>
    rw [unnumbered_response_ask, unnumbered_response_ask, h.tx name he, shown_ask, shown_ask]
    exact ⟨rfl, h.shown⟩
  | commit name =>
    have htx : w'.tx? name = w.tx? name := h.tx name he
    rw [tx?, tx?] at htx
    rw [response, response, World.step, World.step]
    cases hs : w.sessions name with
    | none =>
      rw [hs, Option.map_none, Option.map_eq_none_iff] at htx
      rw [htx, World.commit, World.commit, hs, htx]
      exact ⟨rfl, h.shown⟩
    | some s =>
      rw [hs, Option.map_some, Option.map_eq_some_iff] at htx
      obtain ⟨s', hs', htx⟩ := htx
      rw [hs', store_commit hs, store_commit hs']
      obtain ⟨hanswer, hshown⟩ := Store.commit_congr h.shown htx
      exact ⟨congrArg Response.ended hanswer, hshown⟩
  | rollback name => exact ⟨rfl, h.shown⟩
  | subscribe log => exact ⟨rfl, Store.subscribe_congr h.shown log⟩
  | drain log =>
    obtain ⟨hmessages, hshown⟩ := Store.drain_congr h.shown log
    exact ⟨congrArg Response.drained hmessages, hshown⟩

/-- After a step `e` that is spared, the worlds are still side by side. -/
theorem step (h : Beside deleted r w w') (he : r.spares deleted e) :
    Beside deleted (r.next e) (w.step e) (w'.step e) := by
  refine ⟨congrArg Sight.shown (h.sight_eq he), fun i hi => ?_⟩
  cases e with
  | begin name mode isolation =>
    rw [tx?_begin, tx?_begin]
    by_cases hname : i = name
    · rw [if_pos hname, if_pos hname]
      have hcommitted : w'.store.committed = w.store.committed := congrArg Shown.committed h.shown
      simp only [Store.begin, Transaction.unnumbered, hcommitted]
    · rw [if_neg hname, if_neg hname]
      refine h.tx i ?_
      rwa [Roster.holder_next_begin, if_neg hname] at hi
  | ask name q =>
    rw [tx?_ask, tx?_ask, h.tx i hi, h.tx name he]
  | commit name =>
    rw [World.step, World.step, tx?_commit, tx?_commit, h.tx i hi]
  | rollback name =>
    rw [World.step, World.step, rollback, rollback, tx?_put, tx?_put, h.tx i hi]
  | subscribe log => exact h.tx i hi
  | drain log => exact h.tx i hi

/-- A step `e` that is deleted and shows nothing leaves the worlds side by side. -/
theorem skip (h : Beside deleted r w w') (he : r.spares deleted e = false)
    (hshown : (w.step e).store.shown = w.store.shown) :
    Beside deleted (r.next e) (w.step e) w' := by
  refine ⟨h.shown.trans hshown.symm, fun i hi => ?_⟩
  -- under a name that is still spared the step did nothing
  have hother : ∀ name, (r.holder name).all (!deleted ·) = false →
      (r.holder i).all (!deleted ·) → i ≠ name := by
    rintro name hname hi rfl
    rw [hname] at hi
    cases hi
  cases e with
  | begin name mode isolation =>
    have hname : i ≠ name := by
      rintro rfl
      rw [Roster.holder_next_begin, if_pos rfl] at hi
      rw [Roster.spares, Roster.owner, hi] at he
      cases he
    rw [tx?_begin, if_neg hname]
    refine h.tx i ?_
    rwa [Roster.holder_next_begin, if_neg hname] at hi
  | ask name q => rw [tx?_ask, if_neg (hother name he hi), h.tx i hi]
  | commit name => rw [World.step, tx?_commit, if_neg (hother name he hi), h.tx i hi]
  | rollback name =>
    rw [World.step, rollback, tx?_put, if_neg (hother name he hi), h.tx i hi]
  | subscribe log => cases he
  | drain log => cases he

end Beside

/-! ## Histories with transactions deleted -/

section Deleting

variable {deleted : Nat → Bool} {r : Roster}

/-- No step of a transaction that is deleted is seen: not if it is given up, nor if it ends in a
conflict, nor if it is committed and neither may write nor queued a message. -/
theorem shown_step_of_not_spares {e : Event} (hw : w.Sound) (ht : w.Traced)
    (he : r.spares deleted e = false)
    (hsilent : ∀ name s, e = .commit name → w.sessions name = some s →
      (w.store.commit s.tx).1 = .ok () → s.tx.mode = .readOnly ∧ s.note.queued = []) :
    (w.step e).store.shown = w.store.shown := by
  cases e with
  | begin name mode isolation => rfl
  | ask name q => exact shown_ask name q w
  | commit name =>
    rw [step]
    cases hs : w.sessions name with
    | none => rw [commit, hs]
    | some s =>
      rw [store_commit hs]
      cases hc : w.store.conflicts s.tx with
      | true => rw [Store.commit_of_conflicts hc]
      | false =>
        have hok : (w.store.commit s.tx).1 = .ok () := by rw [Store.commit_of_not_conflicts hc]
        obtain ⟨hmode, hqueued⟩ := hsilent name s rfl hs hok
        have hsound := hw.sessions name s hs
        have houtbox : s.tx.outbox = [] := by
          rw [(ht.sessions name s hs).outbox_eq hsound, hqueued]
        rw [Store.commit_of_not_conflicts hc, houtbox,
          Committed.apply_of_writes_nil (hsound.writes_of_readOnly hmode)]
        rfl
  | rollback name => rfl
  | subscribe log => cases he
  | drain log => cases he

/-- What is seen of `w'`, with some transactions deleted, is what is left of what is seen of `w`,
and in the end both show the same. -/
theorem Beside.watch_left (h : Beside deleted r w w') (hw : w.Reachable)
    (ht : w.Traced) (events : List Event)
    (hsilent : ∀ i s, deleted i → Commits r w events i s →
      s.tx.mode = .readOnly ∧ s.note.queued = []) :
    w'.watch (r.spared deleted events events) = r.spared deleted events (w.watch events) ∧
      ((r.spared deleted events events).foldl World.step w').store.shown =
        (events.foldl World.step w).store.shown := by
  induction events generalizing r w w' with
  | nil => exact ⟨rfl, h.shown⟩
  | cons e events ih =>
    have hlater : ∀ i s, deleted i → Commits (r.next e) (w.step e) events i s →
        s.tx.mode = .readOnly ∧ s.note.queued = [] := by
      rintro i s hi ⟨n, name, hn⟩
      exact hsilent i s hi ⟨n + 1, name, hn⟩
    rw [watch, Roster.spared, Roster.spared]
    cases he : r.spares deleted e with
    | true =>
      obtain ⟨hwatch, hend⟩ := ih (h.step he) (reachable_step hw e) (traced_step ht e) hlater
      refine ⟨?_, hend⟩
      rw [if_pos rfl, if_pos rfl, watch, hwatch, h.sight_eq he]
    | false =>
      have hshown := shown_step_of_not_spares hw.sound ht he ?_
      · exact ih (h.skip he hshown) (reachable_step hw e) (traced_step ht e) hlater
      · rintro name s rfl hs hok
        obtain ⟨i, hi, hdeleted⟩ := Roster.spares_eq_false_iff.1 he
        exact hsilent i s hdeleted ⟨0, name, rfl, hi, hs, hok⟩

/-- Transactions of a history that were not committed, and those that might not write and queued no
messages, can be deleted from it with all their steps, even if there is another mint: each event
that is left is answered the same, but for the number of the transaction, and after each of them the
store shows the same records, versions and logs. Nothing is lost between them either, since no event
that is deleted changes what the store shows. -/
theorem watch_spared (mint mint' : Mint) (events : List Event) (deleted : Nat → Bool)
    (hsilent : ∀ i s, deleted i → Commits {} (init mint) events i s →
      s.tx.mode = .readOnly ∧ s.note.queued = []) :
    let left := Roster.spared deleted {} events events
    watch (init mint') left = Roster.spared deleted {} events (watch (init mint) events) ∧
    (run mint' left).store.shown = (run mint events).store.shown ∧
    (∀ n e, events[n]? = some e →
      ((events.take n).foldl Roster.next {}).spares deleted e = false →
        (run mint (events.take (n + 1))).store.shown = (run mint (events.take n)).store.shown) := by
  have hinit : Beside deleted {} (init mint) (init mint') := ⟨rfl, fun _ _ => rfl⟩
  have hreachable : (init mint : World Trace).Reachable := .init mint
  obtain ⟨hwatch, hend⟩ := hinit.watch_left hreachable ⟨nofun, nofun⟩ events hsilent
  refine ⟨hwatch, hend, fun n e hn he => ?_⟩
  have hnext : run mint (events.take (n + 1)) = (run mint (events.take n)).step e := by
    rw [run, List.take_add_one, hn, List.foldl_append]
    rfl
  rw [hnext]
  refine shown_step_of_not_spares (sound_run mint _) (traced_run mint _) he ?_
  rintro name s rfl hs hok
  obtain ⟨i, hi, hdeleted⟩ := Roster.spares_eq_false_iff.1 he
  exact hsilent i s hdeleted ⟨n, name, hn, hi, hs, hok⟩

end Deleting

/-- The first transaction meets a conflict, the third may not write, the fourth is left open, and
only the second and the fifth are of any consequence. -/
def turmoil : List Event :=
  [.begin 0 .readWrite .serializable, .ask 0 (.nodes {}), .ask 0 (.insert (.node (.numbered 0))),
    .begin 1 .readWrite .readCommitted, .ask 1 (.insert (.node (.numbered 1))), .commit 1,
    .commit 0,
    .begin 0 .readOnly .serializable, .ask 0 (.insert (.node (.numbered 2))), .commit 0,
    .begin 1 .readWrite .readCommitted, .ask 1 (.insert (.node (.numbered 3))),
    .begin 2 .readOnly .serializable, .ask 2 (.nodes {}), .commit 2]

/-- The first, the third and the fourth transaction can be deleted: the last one sees one node with
or without them. -/
theorem watch_spared_turmoil :
    let deleted := fun i => i != 1 && i != 4
    let left := turmoil.extract 3 6 ++ turmoil.drop 12
    (∀ i s, deleted i → Commits {} (init .still) turmoil i s →
      s.tx.mode = .readOnly ∧ s.note.queued = []) ∧
    watch (init .still) left = Roster.spared deleted {} turmoil (watch (init .still) turmoil) ∧
    (run .still (left.take 4)).response (.ask 2 (.nodes {})) =
      .answered (.ok (.nodes [.numbered 1])) := by
  have hsilent : ∀ i s, (i != 1 && i != 4) → Commits {} (init .still) turmoil i s →
      s.tx.mode = .readOnly ∧ s.note.queued = [] := by
    rintro i s hi ⟨n, name, hn, hholder, hs, hok⟩
    have hlt : n < 15 := (List.getElem?_eq_some_iff.1 hn).1
    interval_cases n <;> cases hn <;> cases hholder <;> cases hs
    · cases hi
    · cases hok
    · exact ⟨rfl, rfl⟩
    · cases hi
  exact ⟨hsilent, (watch_spared .still .still turmoil _ hsilent).1, rfl⟩

end World

end Propagation
