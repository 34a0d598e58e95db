import Propagation.Proofs.History
import Mathlib.Data.List.Basic

/-!
# What a log of messages receives

The messages of a transaction wait in its outbox until it is committed. Then they are sent to every
log that is subscribed, one after the other, and to a log that is subscribed several times just as
often. Nothing else is ever sent: what was queued in a transaction that was given up, met a conflict
or is still open is not in any log. To drain a log takes out what came since it was last drained.

A history is read here event by event. What each event contributes is told by what it changes, and
the contributions are gathered in the order of the events.

## Main definitions

* `Store.kept`: the messages that a log keeps.
* `Trace.queued`: the messages that a session queued.
* `World.gathered`: what the events of a history contribute.
* `World.added`, `World.taken`, `World.commits`: what an event adds to a log, what it takes out, and
  which sessions it commits.

## Main statements

* `Store.kept_publish`: what is published reaches a log once for each of its subscriptions.
* `World.added_eq`: an event adds to a log what the sessions that it commits have queued.
* `World.taken_append_kept`: what is taken out and what is left are what there was and what came.
* `World.outbox_delivery`: all that a log ever receives in a history.
-/

namespace Propagation

open Std (ExtTreeMap)

/-! ## The messages of a session -/

/-- The message that a request queues. -/
def Request.queued? : Request → Option Message
  | queue m => some m
  | _ => none

/-- The messages that were queued, in order. -/
def Trace.queued (t : Trace) : List Message := t.filterMap (·.1.queued?)

namespace Request

theorem check_of_queued? {r : Request} {m : Message} (h : r.queued? = some m) (tx : Transaction) :
    r.check tx = .ok () := by
  cases r <;> first | rfl | cases h

/-- The outbox grows by the message that the request `r` queues. -/
theorem outbox_after (r : Request) (tx : Transaction) :
    (r.after tx).outbox = tx.outbox ++ r.queued?.toList := by
  cases hc : r.check tx with
  | error e =>
    rw [after_of_error hc]
    cases hq : r.queued? with
    | none => exact (List.append_nil _).symm
    | some m =>
      rw [check_of_queued? hq] at hc
      cases hc
  | ok u =>
    rw [after_of_ok hc]
    cases r <;> simp only [note, queued?] <;> (try split) <;> first
      | rfl
      | exact (List.append_nil _).symm

theorem outbox_afterAll (rs : List Request) (tx : Transaction) :
    (afterAll rs tx).outbox = tx.outbox ++ (trace rs tx).queued := by
  induction rs generalizing tx with
  | nil => exact (List.append_nil _).symm
  | cons r rs ih =>
    rw [afterAll_cons, ih, outbox_after, List.append_assoc, trace]
    cases hr : r.queued? <;> simp [Trace.queued, hr]

end Request

/-- What waits in the outbox of `s` is what its trace queued. -/
theorem Session.Traced.outbox_eq {s : Session Trace} {log : List Transaction} (h : s.Traced)
    (hs : s.Sound log) : s.tx.outbox = s.note.queued := by
  have hstart : s.start.outbox = [] := by rw [hs.start_eq]; rfl
  rw [h.tx_eq, Request.outbox_afterAll, ← h.note_eq, hstart, List.nil_append]

/-! ## The messages of a log -/

namespace Store

/-- The messages that `log` keeps; a log that there is not keeps none. -/
def kept (log : String) (s : Store) : List Message := s.logs.getD log []

theorem getD_append (m : Message) (logs : ExtTreeMap String (List Message)) (l log : String) :
    (append m logs l).getD log [] = logs.getD log [] ++ if l = log then [m] else [] := by
  rw [append, ExtTreeMap.getD_insert]
  by_cases hl : l = log
  · subst hl
    simp
  · simp [hl]

/-- To send the message `m` to all `subscriptions` adds it to a log once for each that names it. -/
theorem getD_foldl_append (m : Message) (subscriptions : List String)
    (logs : ExtTreeMap String (List Message)) (log : String) :
    (subscriptions.foldl (append m) logs).getD log [] =
      logs.getD log [] ++ List.replicate (subscriptions.count log) m := by
  induction subscriptions generalizing logs with
  | nil => simp
  | cons l subscriptions ih =>
    rw [List.foldl_cons, ih, getD_append, List.append_assoc, List.count_cons]
    by_cases hl : l = log
    · simp [hl, List.replicate_succ]
    · simp [hl]

/-- What `publish` sends reaches `log` in order, each message once for each of its subscriptions. -/
theorem kept_publish (messages : List Message) (s : Store) (log : String) :
    (s.publish messages).kept log =
      s.kept log ++ messages.flatMap (List.replicate (s.subscriptions.count log)) := by
  rw [kept, kept, publish]
  dsimp only
  generalize s.logs = logs
  induction messages generalizing logs with
  | nil => simp
  | cons m messages ih =>
    rw [List.foldl_cons, ih, getD_foldl_append, List.flatMap_cons, List.append_assoc]

theorem kept_subscribe (l log : String) (s : Store) : (s.subscribe l).kept log = s.kept log := by
  rw [kept, kept, subscribe]
  dsimp only
  split
  · rfl
  · rename_i hnew
    rw [ExtTreeMap.getD_insert]
    split
    · rename_i hl
      cases Std.compare_eq_iff_eq.1 hl
      exact (ExtTreeMap.getD_eq_fallback (by simpa using hnew)).symm
    · rfl

@[simp] theorem subscriptions_run {α : Type} (op : Op α) (tx : Transaction) (s : Store) :
    (s.run op tx).2.subscriptions = s.subscriptions := by
  unfold run
  split <;> rfl

theorem kept_run {α : Type} (op : Op α) (tx : Transaction) (s : Store) (log : String) :
    (s.run op tx).2.kept log = s.kept log := by
  unfold run
  split <;> rfl

end Store

namespace World

variable {w : World Trace} {log : String}

theorem kept_drain (l log : String) (s : Store) :
    (drain l s).kept log = if l = log then [] else s.kept log := by
  rw [drain, Store.drain?, Store.messages?]
  cases hl : s.logs[l]? with
  | none =>
    by_cases heq : l = log
    · subst heq
      simp [Store.kept, ExtTreeMap.getD_eq_getD_getElem?, hl]
    · simp [heq]
  | some messages =>
    simp only [Option.map_some, Option.getD_some, Store.kept, ExtTreeMap.getD_insert,
      Std.compare_eq_iff_eq]

end World

/-- Whether an event subscribes `log`. -/
def Event.subscribes (log : String) : Event → Bool
  | .subscribe l => l = log
  | _ => false

namespace World

variable {w : World Trace} {log : String}

/-! ## What events contribute -/

/-- What the events of a history contribute by `f`, in their order. -/
def gathered {β : Type} (f : World Trace → Event → List β) : World Trace → List Event → List β
  | _, [] => []
  | w, e :: events => f w e ++ gathered f (w.step e) events

/-- What is gathered by `g` is known from what each event contributes. -/
theorem gathered_flatMap {β γ : Type} {f : World Trace → Event → List β}
    {g : World Trace → Event → List γ} {k : γ → List β} (h : ∀ w e, f w e = (g w e).flatMap k)
    (w : World Trace) (events : List Event) :
    gathered f w events = (gathered g w events).flatMap k := by
  induction events generalizing w with
  | nil => rfl
  | cons e events ih => rw [gathered, gathered, List.flatMap_append, h, ih]

/-- What the event `e` adds at the end of `log`. -/
def added (log : String) (w : World Trace) (e : Event) : List Message :=
  ((w.step e).store.kept log).drop (w.store.kept log).length

/-- What an event tells whoever drains `log`. -/
def taken (log : String) (w : World Trace) : Event → List Message
  | .drain l => if l = log then ((w.store.drain? log).map Prod.fst).getD [] else []
  | _ => []

/-- The sessions that the event `e` commits, each with how often `log` is subscribed at the moment.
-/
def commits (log : String) (w : World Trace) (e : Event) : List (Session Trace × Nat) :=
  ((w.step e).log.drop w.log.length).map (·, w.store.subscriptions.count log)

/-- The messages in the outbox of a session, each repeated as often as the log is subscribed. -/
def posted (p : Session Trace × Nat) : List Message := p.1.tx.outbox.flatMap (List.replicate p.2)

/-- An event `e` that commits nothing has no part in what is published. -/
theorem commits_of_log_eq {e : Event} (h : (w.step e).log = w.log) : commits log w e = [] := by
  rw [commits, h, List.drop_length, List.map_nil]

theorem kept_commit (w : World Trace) (log : String) (name : Nat) :
    (w.step (.commit name)).store.kept log =
      w.store.kept log ++ (commits log w (.commit name)).flatMap posted := by
  cases hs : w.sessions name with
  | none =>
    have hstep : w.step (.commit name) = w := by rw [step, commit, hs]
    rw [commits_of_log_eq (by rw [hstep]), hstep]
    exact (List.append_nil _).symm
  | some s =>
    cases hc : w.store.conflicts s.tx with
    | true =>
      have hstep : w.step (.commit name) = w.put name none := by
        simp only [step, commit, hs, Store.commit_of_conflicts hc]
      rw [commits_of_log_eq (by rw [hstep]; rfl), hstep]
      exact (List.append_nil _).symm
    | false =>
      have hstep : w.step (.commit name) = put name none { w with
          store := Store.publish s.tx.outbox
            { w.store with committed := w.store.committed.apply s.tx }
          log := w.log ++ [s] } := by
        simp only [step, commit, hs, Store.commit_of_not_conflicts hc]
      have hcommits : commits log w (.commit name) =
          [(s, w.store.subscriptions.count log)] := by
        rw [commits, hstep]
        simp [put]
      rw [hcommits, hstep]
      change (Store.publish _ _).kept log = _
      rw [Store.kept_publish, List.flatMap_singleton]
      rfl

/-- An event that does not drain `log` adds to it what the sessions that it commits have queued. -/
theorem kept_step (w : World Trace) {log : String} {e : Event} (he : e ≠ .drain log) :
    (w.step e).store.kept log = w.store.kept log ++ (commits log w e).flatMap posted := by
  cases e with
  | commit name => exact kept_commit w log name
  | begin name mode isolation =>
    rw [commits_of_log_eq rfl]
    exact (List.append_nil _).symm
  | ask name r =>
    rw [commits_of_log_eq (by rw [step, log_use]), List.flatMap_nil, List.append_nil, step, use]
    cases hs : w.sessions name with
    | none => rfl
    | some s => exact Store.kept_run _ s.tx w.store log
  | rollback name =>
    rw [commits_of_log_eq rfl]
    exact (List.append_nil _).symm
  | subscribe l =>
    rw [commits_of_log_eq rfl, List.flatMap_nil, List.append_nil]
    exact Store.kept_subscribe l log w.store
  | drain l =>
    rw [commits_of_log_eq rfl, List.flatMap_nil, List.append_nil]
    refine (kept_drain l log w.store).trans (if_neg ?_)
    rintro rfl
    exact he rfl

theorem kept_step_drain (w : World Trace) (log : String) :
    (w.step (.drain log)).store.kept log = [] := (kept_drain log log w.store).trans (if_pos rfl)

/-- What the event `e` adds to `log` is what the sessions that it commits have queued. -/
theorem added_eq (log : String) (w : World Trace) (e : Event) :
    added log w e = (commits log w e).flatMap posted := by
  rw [added]
  by_cases he : e = .drain log
  · subst he
    rw [kept_step_drain, commits_of_log_eq rfl]
    exact List.drop_nil
  · rw [kept_step w he, List.drop_left]

theorem taken_eq_nil {log : String} {e : Event} (he : e ≠ .drain log) (w : World Trace) :
    taken log w e = [] := by
  cases e with
  | drain l =>
    refine if_neg ?_
    rintro rfl
    exact he rfl
  | _ => rfl

theorem taken_drain (log : String) (w : World Trace) :
    taken log w (.drain log) = w.store.kept log := by
  simp only [taken, if_true, Store.drain?, Store.messages?, Store.kept,
    ExtTreeMap.getD_eq_getD_getElem?]
  cases w.store.logs[log]? <;> rfl

/-- What the event `e` takes out of `log`, and what is left, are what there was and what came. -/
theorem taken_append_kept (log : String) (w : World Trace) (e : Event) :
    taken log w e ++ (w.step e).store.kept log = w.store.kept log ++ added log w e := by
  by_cases he : e = .drain log
  · subst he
    rw [taken_drain, added, kept_step_drain, List.drop_nil]
  · rw [taken_eq_nil he, added_eq, kept_step w he, List.nil_append]

/-! ## Histories -/

/-- What is taken out of `log` in a history, and what is left, are what there was and what came. -/
theorem gathered_taken_append_kept (log : String) (w : World Trace) (events : List Event) :
    gathered (taken log) w events ++ (events.foldl step w).store.kept log =
      w.store.kept log ++ gathered (added log) w events := by
  induction events generalizing w with
  | nil => simp [gathered]
  | cons e events ih =>
    rw [gathered, gathered, List.foldl_cons, List.append_assoc, ih, ← List.append_assoc,
      taken_append_kept, List.append_assoc]

/-- Where `log` is not drained, nothing is taken out of it. -/
theorem gathered_taken_eq_nil {log : String} {events : List Event} (h : .drain log ∉ events)
    (w : World Trace) : gathered (taken log) w events = [] := by
  induction events generalizing w with
  | nil => rfl
  | cons e events ih =>
    rw [List.mem_cons, not_or] at h
    rw [gathered, ih h.2, List.append_nil]
    exact taken_eq_nil (Ne.symm h.1) w

/-- What `log` keeps after it was drained is what came since. -/
theorem kept_since_drain {log : String} {events : List Event} (h : .drain log ∉ events)
    (w : World Trace) :
    (events.foldl step (w.step (.drain log))).store.kept log =
      gathered (added log) (w.step (.drain log)) events := by
  have hsince := gathered_taken_append_kept log (w.step (.drain log)) events
  rwa [gathered_taken_eq_nil h, kept_step_drain, List.nil_append, List.nil_append] at hsince

/-- The log of a world only grows in a `step`. -/
theorem log_prefix_step (w : World Trace) (e : Event) : w.log <+: (w.step e).log := by
  cases e with
  | commit name =>
    rcases commit_cases w name with ⟨hlog, -⟩ | ⟨s, -, -, hlog, -⟩
    · exact hlog ▸ List.prefix_rfl
    · exact hlog ▸ List.prefix_append _ _
  | ask name r => exact (log_use (w := w)) ▸ List.prefix_rfl
  | _ => exact List.prefix_rfl

/-- The sessions that `events` commit are in the log of the world, in this order. -/
theorem log_foldl_step (log : String) (w : World Trace) (events : List Event) :
    (events.foldl step w).log = w.log ++ (gathered (commits log) w events).map Prod.fst := by
  induction events generalizing w with
  | nil => simp [gathered]
  | cons e events ih =>
    have hstep : (w.step e).log = w.log ++ (commits log w e).map Prod.fst := by
      obtain ⟨more, hmore⟩ := log_prefix_step w e
      rw [commits, ← hmore, List.drop_left, List.map_map]
      exact congrArg (w.log ++ ·) (List.map_id _).symm
    rw [List.foldl_cons, ih, hstep, gathered, List.map_append, List.append_assoc]

theorem count_subscriptions_step (w : World Trace) (log : String) (e : Event) :
    (w.step e).store.subscriptions.count log =
      w.store.subscriptions.count log + if e.subscribes log then 1 else 0 := by
  cases e with
  | subscribe l =>
    have hstep : (w.step (.subscribe l)).store.subscriptions = w.store.subscriptions ++ [l] := rfl
    rw [hstep, List.count_append, List.count_singleton, Event.subscribes]
    simp only [beq_iff_eq, decide_eq_true_eq]
  | begin name mode isolation => rfl
  | ask name r =>
    rw [step, use]
    cases hs : w.sessions name with
    | none => rfl
    | some s => exact congrArg (List.count log) (Store.subscriptions_run _ s.tx w.store)
  | commit name =>
    rw [step, commit]
    cases hs : w.sessions name with
    | none => rfl
    | some s =>
      cases hc : w.store.conflicts s.tx with
      | true => simp only [Store.commit_of_conflicts hc]; rfl
      | false => simp only [Store.commit_of_not_conflicts hc]; rfl
  | rollback name => rfl
  | drain l =>
    change (drain l w.store).subscriptions.count log = _
    rw [drain, Store.drain?]
    cases w.store.messages? l <;> rfl

/-- The log `log` is subscribed as often as it was asked for. -/
theorem count_subscriptions (w : World Trace) (events : List Event) (log : String) :
    (events.foldl step w).store.subscriptions.count log =
      w.store.subscriptions.count log + events.countP (·.subscribes log) := by
  induction events generalizing w with
  | nil => rfl
  | cons e events ih =>
    rw [List.foldl_cons, ih, count_subscriptions_step, List.countP_cons]
    omega

/-- All that a log ever receives in a history are the messages of the committed sessions: session by
session in the order of the commits, in each the messages in the order in which they were queued,
and each message as often as the log was subscribed when the session was committed. What was taken
out of the log, one time after the other, followed by what it still keeps, is just that; and what it
keeps after it was drained is what came since. -/
theorem outbox_delivery (mint : Mint) (events : List Event) (log : String) :
    let committed := gathered (commits log) (init mint) events
    let received := gathered (added log) (init mint) events
    committed.map Prod.fst = (run mint events).log ∧
    received = committed.flatMap (fun (s, times) => s.note.queued.flatMap (List.replicate times)) ∧
    gathered (taken log) (init mint) events ++ (run mint events).store.kept log = received ∧
    (∀ before after, events = before ++ .drain log :: after → .drain log ∉ after →
      (run mint events).store.kept log =
        gathered (added log) (run mint (before ++ [.drain log])) after) ∧
    (run mint events).store.subscriptions.count log = events.countP (·.subscribes log) := by
  have hlog := log_foldl_step log (init mint) events
  have hempty : (init mint : World Trace).store.kept log = [] := by
    simp [Store.kept, init]
  refine ⟨hlog.symm, ?_, ?_, ?_, ?_⟩
  · rw [gathered_flatMap (added_eq log)]
    refine List.flatMap_congr fun p hp => ?_
    have hmem : p.1 ∈ (run mint events).log := by
      rw [run, hlog]
      exact List.mem_append_right _ (List.mem_map_of_mem hp)
    have htraced := (traced_run mint events).log p.1 hmem
    rw [posted, htraced.outbox_eq ((sound_run mint events).log p.1 hmem)]
  · have hall := gathered_taken_append_kept log (init mint) events
    rwa [hempty, List.nil_append] at hall
  · rintro before after rfl hafter
    rw [run, run, List.foldl_append, List.foldl_append, List.foldl_cons]
    exact kept_since_drain hafter (before.foldl step (init mint))
  · have hcount := count_subscriptions (init mint) events log
    rwa [show (init mint : World Trace).store.subscriptions = [] from rfl, List.count_nil,
      Nat.zero_add] at hcount

/-- A transaction queues two messages, is committed, and is followed by one that is given up and one
that is committed after the log was subscribed a second time and drained. -/
def bulletin : List Event :=
  [.subscribe "log", .begin 0 .readWrite .readCommitted, .ask 0 (.queue (message "one")),
    .ask 0 (.queue (message "two")), .commit 0, .begin 0 .readOnly .serializable,
    .ask 0 (.queue (message "lost")), .rollback 0, .subscribe "log", .drain "log",
    .begin 0 .readOnly .serializable, .ask 0 (.queue (message "three")), .commit 0]
where
  message (payload : String) : Message := { channel := "news", payload }

/-- The log has been told the first two messages and keeps the third one twice. -/
theorem outbox_delivery_bulletin :
    (run .still bulletin).store.kept "log" = [bulletin.message "three", bulletin.message "three"] ∧
    gathered (added "log") (init .still) bulletin = [bulletin.message "one", bulletin.message "two",
      bulletin.message "three", bulletin.message "three"] := by
  obtain ⟨-, hreceived, -, hsince, -⟩ := outbox_delivery .still bulletin "log"
  refine ⟨(hsince (bulletin.take 9) (bulletin.drop 10) rfl ?_).trans ?_, hreceived.trans ?_⟩
  · simp [bulletin]
  · decide
  · decide

end World

end Propagation
