import Propagation.Proofs.Asking
import Propagation.Proofs.Log
import Mathlib.Logic.Function.Basic

/-!
# Runs of a store

A world is a store together with the transactions that are open in it. Each goes by a name, and
under each name one can begin, use and end transactions in any order; whoever begins anew under a
name gives up what was open there. A world also remembers what the store itself forgets: how each
open transaction began, and which transactions were committed.

Versions are numbers without bound here; a run of fewer than 2^64 commits can not tell them from
64-bit counters.

## Main definitions

* `Session`, `World`: an open transaction and its past, a store with its open transactions.
* `World.begin`, `World.use`, `World.commit`, `World.rollback`, `World.aside`: what can happen.
* `World.Reachable`: the worlds that can come about.
* `World.opening`, `World.used`: a session as it begins, and after an operation.
* `Session.Sound`, `World.Sound`: the account of the past is true.

## Main statements

* `World.sessions_begin`, `World.sessions_use`, `World.sessions_commit`, `World.commit_cases`: what
  each step does.
* `World.Reachable.sound`: every world that can come about is sound.
-/

namespace Propagation

/-- A mint whose wall clock stands still and whose identifiers count up. -/
def Mint.still : Mint where
  clock := { wall := fun _ => 0 }
  ids := { draw := .ofNat 128 }

/-- The transaction that begins when `c` is committed. -/
def Committed.opened (c : Committed) (id : TxId) (mode : TxMode) (isolation : Isolation) :
    Transaction :=
  { id, mode, isolation, beginVersion := c.version, view := c.tables }

/-- A transaction `tx` with its past, and with a note of what was done in it. -/
structure Session (α : Type) where
  /-- The transaction as it began. -/
  start : Transaction
  /-- The transaction as it is now. -/
  tx : Transaction
  note : α
  /-- How many transactions had been committed when it began. -/
  began : Nat

/-- A store with its open transactions. -/
structure World (α : Type) where
  store : Store
  /-- The open transactions, by their names. -/
  sessions : Nat → Option (Session α)
  /-- The transactions that were committed, in this order. -/
  log : List (Session α)

namespace World

variable {α β : Type}

/-- A store in which nothing has happened. -/
def init (mint : Mint) : World α where
  store := { mint }
  sessions := fun _ => none
  log := []

/-- Have the session `s` open under `name`, or none. -/
def put (name : Nat) (s : Option (Session α)) (w : World α) : World α :=
  { w with sessions := Function.update w.sessions name s }

/-- Begin a transaction under `name`. -/
def begin (name : Nat) (mode : TxMode) (isolation : Isolation) (note : α) (w : World α) :
    World α :=
  let (tx, store) := w.store.begin mode isolation
  put name (some { start := tx, tx, note, began := w.log.length }) { w with store }

/-- Run the operation `op` in the transaction that is open under `name`, and note with `remark` what
it answered. -/
def use (name : Nat) (op : Op β) (remark : Except Error β → α → α) (w : World α) : World α :=
  match w.sessions name with
  | none => w
  | some s =>
    let ((outcome, tx), store) := w.store.run op s.tx
    put name (some { s with tx, note := remark outcome s.note }) { w with store }

/-- End the transaction that is open under `name` with a commit, which may fail. -/
def commit (name : Nat) (w : World α) : World α :=
  match w.sessions name with
  | none => w
  | some s =>
    match w.store.commit s.tx with
    | (.ok (), store) => put name none { w with store, log := w.log ++ [s] }
    | (.error _, store) => put name none { w with store }

/-- Give up the transaction that is open under `name`. -/
def rollback (name : Nat) (w : World α) : World α := put name none w

/-- Use the store outside of its transactions with `f`: its mint, and the logs of its messages. -/
def aside (f : Store → Store) (w : World α) : World α := { w with store := f w.store }

/-- The worlds that can come about. What an operation of `use` does in a transaction is done by
requests. -/
inductive Reachable : World α → Prop
  | init (mint : Mint) : Reachable (init mint)
  | begin (name : Nat) (mode : TxMode) (isolation : Isolation) (note : α) {w : World α} :
    Reachable w → Reachable (w.begin name mode isolation note)
  | use (name : Nat) {β : Type} {op : Op β} (hop : Asks AnyRequest op)
    (remark : Except Error β → α → α) {w : World α} :
    Reachable w → Reachable (w.use name op remark)
  | commit (name : Nat) {w : World α} : Reachable w → Reachable (w.commit name)
  | rollback (name : Nat) {w : World α} : Reachable w → Reachable (w.rollback name)
  | aside {f : Store → Store} (hf : ∀ s, (f s).committed = s.committed) {w : World α} :
    Reachable w → Reachable (w.aside f)

end World

/-! ## What each step does -/

namespace World

variable {α β : Type} {w : World α}

/-- A step that puts `s` concerns the session under `name` only. -/
theorem sessions_put {name i : Nat} {s : Option (Session α)} {t : Session α}
    (h : (w.put name s).sessions i = some t) :
    i = name ∧ s = some t ∨ i ≠ name ∧ w.sessions i = some t := by
  change Function.update w.sessions name s i = some t at h
  rw [Function.update_apply] at h
  by_cases hi : i = name
  · rw [if_pos hi] at h
    exact .inl ⟨hi, h⟩
  · rw [if_neg hi] at h
    exact .inr ⟨hi, h⟩

section Begin

variable {name : Nat} {mode : TxMode} {isolation : Isolation} {note : α}

/-- The session of a transaction that begins in the world `w`. -/
def opening (mode : TxMode) (isolation : Isolation) (note : α) (w : World α) : Session α where
  start := (w.store.begin mode isolation).1
  tx := (w.store.begin mode isolation).1
  note := note
  began := w.log.length

/-- After a transaction has begun under `name`, there is its session, and the others are as they
were. -/
theorem sessions_begin {i : Nat} {t : Session α}
    (h : (w.begin name mode isolation note).sessions i = some t) :
    t = w.opening mode isolation note ∨ w.sessions i = some t := by
  rcases sessions_put h with ⟨-, ht⟩ | ⟨-, ht⟩
  · exact .inl (Option.some.inj ht).symm
  · exact .inr ht

end Begin

/-- What `Store.run` leaves of the transaction is what `op` leaves of its scene. -/
theorem tx_run (store : Store) (op : Op β) (tx : Transaction) :
    (store.run op tx).1.2 = (final (op { tx, mint := store.mint })).tx := by
  rw [Store.run]
  split <;> rename_i he <;> rw [he] <;> rfl

/-- What `Store.run` answers is what `op` answers in its scene. -/
theorem answer_run (store : Store) (op : Op β) (tx : Transaction) :
    (store.run op tx).1.1 = outcome (op { tx, mint := store.mint }) := by
  rw [Store.run]
  split <;> rename_i he <;> rw [he] <;> rfl

section Use

variable {name : Nat} {op : Op β} {remark : Except Error β → α → α}

@[simp] theorem log_use : (w.use name op remark).log = w.log := by
  rw [use]
  cases w.sessions name <;> rfl

@[simp] theorem committed_use :
    (w.use name op remark).store.committed = w.store.committed := by
  rw [use]
  cases w.sessions name with
  | none => rfl
  | some s => exact Store.committed_run op s.tx w.store

/-- The session `s` after the operation `op` in its transaction. -/
def used (op : Op β) (remark : Except Error β → α → α) (s : Session α) (w : World α) :
    Session α :=
  let result := op { tx := s.tx, mint := w.store.mint }
  { s with tx := (final result).tx, note := remark (outcome result) s.note }

/-- After the operation `op`, the session in which it ran is brought up to date, and the others are
as they were. -/
theorem sessions_use {i : Nat} {t : Session α}
    (h : (w.use name op remark).sessions i = some t) :
    (∃ s, w.sessions name = some s ∧ t = w.used op remark s) ∨ w.sessions i = some t := by
  rw [use] at h
  cases hs : w.sessions name with
  | none =>
    rw [hs] at h
    exact .inr h
  | some s =>
    rw [hs] at h
    rcases sessions_put h with ⟨-, ht⟩ | ⟨-, ht⟩
    · refine .inl ⟨s, rfl, ?_⟩
      rw [used, ← tx_run, ← answer_run]
      exact (Option.some.inj ht).symm
    · exact .inr ht

section Open

variable {s : Session α} (hs : w.sessions name = some s)
include hs

theorem sessions_use_eq : (w.use name op remark).sessions =
    Function.update w.sessions name (some (w.used op remark s)) := by
  rw [use, hs, used, ← tx_run, ← answer_run]
  rfl

theorem mint_use :
    (w.use name op remark).store.mint = (final (op { tx := s.tx, mint := w.store.mint })).mint := by
  rw [use, hs]
  change (w.store.run op s.tx).2.mint = _
  rw [Store.run]
  cases op { tx := s.tx, mint := w.store.mint } <;> rfl

end Open

end Use

/-- After the end of the transaction under `name`, the other sessions are as they were. -/
theorem sessions_commit {name i : Nat} {t : Session α}
    (h : (w.commit name).sessions i = some t) : w.sessions i = some t := by
  rw [commit] at h
  cases hs : w.sessions name with
  | none =>
    rw [hs] at h
    exact h
  | some s =>
    cases hc : w.store.conflicts s.tx with
    | true =>
      simp only [hs, Store.commit_of_conflicts hc] at h
      rcases sessions_put h with ⟨-, ht⟩ | ⟨-, ht⟩
      · cases ht
      · exact ht
    | false =>
      simp only [hs, Store.commit_of_not_conflicts hc] at h
      rcases sessions_put h with ⟨-, ht⟩ | ⟨-, ht⟩
      · cases ht
      · exact ht

/-- A commit either changes nothing that is committed, or there is no conflict and it adds the
session under `name` to the log. -/
theorem commit_cases (w : World α) (name : Nat) :
    ((w.commit name).log = w.log ∧ (w.commit name).store.committed = w.store.committed) ∨
    ∃ s, w.sessions name = some s ∧ w.store.conflicts s.tx = false ∧
      (w.commit name).log = w.log ++ [s] ∧
      (w.commit name).store.committed = w.store.committed.apply s.tx := by
  rw [commit]
  cases hs : w.sessions name with
  | none => exact .inl ⟨rfl, rfl⟩
  | some s =>
    cases hc : w.store.conflicts s.tx with
    | true =>
      simp only [Store.commit_of_conflicts hc]
      exact .inl ⟨rfl, rfl⟩
    | false =>
      simp only [Store.commit_of_not_conflicts hc]
      exact .inr ⟨s, rfl, hc, rfl, rfl⟩

theorem sessions_rollback {name i : Nat} {t : Session α}
    (h : (w.rollback name).sessions i = some t) : w.sessions i = some t := by
  rcases sessions_put h with ⟨-, ht⟩ | ⟨-, ht⟩
  · cases ht
  · exact ht

end World

/-! ## Every world is sound -/

/-- What the session `s` remembers is true: it began with what was committed then, by the
transactions of `log`, and has become what it is by requests. -/
structure Session.Sound {α : Type} (log : List Transaction) (s : Session α) : Prop where
  began_le : s.began ≤ log.length
  start_eq : s.start = (Committed.ofLog (log.take s.began)).opened s.start.id s.start.mode
    s.start.isolation
  becomes : s.start.Becomes AnyRequest s.tx

theorem Session.Sound.append {α : Type} {log : List Transaction} {s : Session α} (h : s.Sound log)
    (more : List Transaction) : s.Sound (log ++ more) where
  began_le := Nat.le_trans h.began_le (by simp)
  start_eq := by rw [List.take_append_of_le_length h.began_le]; exact h.start_eq
  becomes := h.becomes

namespace World

/-- What the world `w` remembers is true. -/
structure Sound {α : Type} (w : World α) : Prop where
  committed_eq : w.store.committed = Committed.ofLog (w.log.map (·.tx))
  sessions : ∀ name s, w.sessions name = some s → s.Sound (w.log.map (·.tx))
  log : ∀ s ∈ w.log, s.Sound (w.log.map (·.tx))

variable {α β : Type} {w : World α}

theorem sound_init (mint : Mint) : (init mint : World α).Sound where
  committed_eq := rfl
  sessions _ _ h := by cases h
  log _ h := by cases h

theorem Sound.begin (h : w.Sound) (name : Nat) (mode : TxMode) (isolation : Isolation)
    (note : α) : (w.begin name mode isolation note).Sound where
  committed_eq := h.committed_eq
  sessions i t ht := by
    rcases sessions_begin ht with rfl | ht
    · have hlog : (w.log.map (·.tx)).take w.log.length = w.log.map (·.tx) :=
        List.take_of_length_le (by simp)
      have hbegan : w.log.length ≤ (w.log.map (·.tx)).length := by simp
      refine ⟨hbegan, ?_, .refl _⟩
      change _ = (Committed.ofLog ((w.log.map (·.tx)).take w.log.length)).opened _ _ _
      rw [hlog, ← h.committed_eq]
      rfl
    · exact h.sessions i t ht
  log := h.log

theorem Sound.use (h : w.Sound) (name : Nat) {op : Op β} (hop : Asks AnyRequest op)
    (remark : Except Error β → α → α) : (w.use name op remark).Sound where
  committed_eq := by rw [committed_use, log_use]; exact h.committed_eq
  sessions i t ht := by
    rw [log_use]
    rcases sessions_use ht with ⟨s, hs, rfl⟩ | ht
    · have hsound := h.sessions name s hs
      exact ⟨hsound.began_le, hsound.start_eq, hsound.becomes.trans (hop ⟨s.tx, w.store.mint⟩)⟩
    · exact h.sessions i t ht
  log := by rw [log_use]; exact h.log

theorem Sound.commit (h : w.Sound) (name : Nat) : (w.commit name).Sound := by
  rcases commit_cases w name with ⟨hlog, hcommitted⟩ | ⟨s, hs, -, hlog, hcommitted⟩
  · refine ⟨?_, ?_, ?_⟩
    · rw [hlog, hcommitted]
      exact h.committed_eq
    · intro i t ht
      rw [hlog]
      exact h.sessions i t (sessions_commit ht)
    · rw [hlog]
      exact h.log
  · refine ⟨?_, ?_, ?_⟩
    · rw [hlog, hcommitted, List.map_append, List.map_singleton, Committed.ofLog_concat,
        ← h.committed_eq]
    · intro i t ht
      rw [hlog, List.map_append]
      exact (h.sessions i t (sessions_commit ht)).append _
    · rw [hlog, List.map_append]
      intro t ht
      rcases List.mem_append.1 ht with ht | ht
      · exact (h.log t ht).append _
      · rw [List.mem_singleton.1 ht]
        exact (h.sessions name s hs).append _

theorem Sound.rollback (h : w.Sound) (name : Nat) : (w.rollback name).Sound :=
  ⟨h.committed_eq, fun i t ht => h.sessions i t (sessions_rollback ht), h.log⟩

theorem Sound.aside (h : w.Sound) {f : Store → Store} (hf : ∀ s, (f s).committed = s.committed) :
    (w.aside f).Sound where
  committed_eq := (hf w.store).trans h.committed_eq
  sessions := h.sessions
  log := h.log

/-- Every world that can come about is sound. -/
theorem Reachable.sound (h : w.Reachable) : w.Sound := by
  induction h with
  | init mint => exact sound_init mint
  | begin name mode isolation note _ ih => exact ih.begin name mode isolation note
  | use name hop remark _ ih => exact ih.use name hop remark
  | commit name _ ih => exact ih.commit name
  | rollback name _ ih => exact ih.rollback name
  | aside hf _ ih => exact ih.aside hf

end World

end Propagation
