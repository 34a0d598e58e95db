import Propagation.Proofs.Snapshot

/-!
# Histories

A history is a list of events: transactions begin, are asked, and end, in any order and with any
names, while logs of messages are subscribed and drained. In its world every session carries the
trace of what it was asked and what it answered, and the committed sessions keep theirs.

## Main definitions

* `Event`: what can happen.
* `World.step`, `World.run`: the world after an event, and after a history.
* `Session.Traced`: the note of a session is its trace.
* `World.Throughout`: the committed tables and all snapshots have a property.
* `Node.numbered`, `Vector.numbered`, `Info.numbered`: records for examples of histories.

## Main statements

* `World.reachable_run`: the world of a history is one that can come about.
* `Session.Traced.mem_reads` and siblings: the accounts of a session are those of its trace.
* `World.traced_run`: every note is a trace, also of what was committed.
* `World.run_induction`: what no event breaks holds after every history.
* `World.Throughout.after`: what an event changes of the committed tables and the snapshots.
-/

namespace Propagation

/-- What can happen. -/
inductive Event
  | begin (name : Nat) (mode : TxMode) (isolation : Isolation)
  | ask (name : Nat) (r : Request)
  | commit (name : Nat)
  | rollback (name : Nat)
  | subscribe (log : String)
  | drain (log : String)

/-- The note of the session `s` is the trace of all that it was asked. -/
structure Session.Traced (s : Session Trace) : Prop where
  tx_eq : s.tx = Request.afterAll (s.note.map Prod.fst) s.start
  note_eq : s.note = Request.trace (s.note.map Prod.fst) s.start

namespace World

/-- Empty `log`, if there is such a log. -/
def drain (log : String) (s : Store) : Store := ((s.drain? log).map Prod.snd).getD s

/-- The world after an event in the world `w`. -/
def step (w : World Trace) : Event → World Trace
  | .begin name mode isolation => w.begin name mode isolation []
  | .ask name r => w.use name (Op.access r.perform) fun answer note => note ++ [(r, answer)]
  | .commit name => w.commit name
  | .rollback name => w.rollback name
  | .subscribe log => w.aside (Store.subscribe log)
  | .drain log => w.aside (drain log)

/-- The world after the history `events`. -/
def run (mint : Mint) (events : List Event) : World Trace := events.foldl step (init mint)

/-- To `perform` a request is to ask. -/
theorem asks_perform (r : Request) : Asks AnyRequest (Op.access r.perform) :=
  .access (.of_final trivial fun _ => rfl)

theorem committed_drain (log : String) (s : Store) : (drain log s).committed = s.committed := by
  rw [drain, Store.drain?]
  cases s.messages? log <;> rfl

theorem reachable_step {w : World Trace} (h : w.Reachable) (e : Event) : (w.step e).Reachable := by
  cases e with
  | begin name mode isolation => exact h.begin name mode isolation []
  | ask name r => exact h.use name (asks_perform r) fun answer note => note ++ [(r, answer)]
  | commit name => exact h.commit name
  | rollback name => exact h.rollback name
  | subscribe log => exact h.aside (f := Store.subscribe log) fun _ => rfl
  | drain log => exact h.aside (committed_drain log)

/-- The world of a history is one that can come about. -/
theorem reachable_run (mint : Mint) (events : List Event) : (run mint events).Reachable :=
  List.foldlRecOn (motive := Reachable) events step (.init mint)
    fun _ hw e _ => reachable_step hw e

theorem sound_run (mint : Mint) (events : List Event) : (run mint events).Sound :=
  (reachable_run mint events).sound

end World

/-! ## Every note is a trace -/

/-- What a session answers to the request `r` becomes part of its trace. -/
theorem Session.Traced.ask {s : Session Trace} (h : s.Traced) (r : Request) :
    Session.Traced { s with tx := r.after s.tx, note := s.note ++ [(r, r.answer s.tx)] } where
  tx_eq := by
    simp only [List.map_append, List.map_singleton, Request.afterAll_append, ← h.tx_eq]
    rfl
  note_eq := by
    simp only [List.map_append, List.map_singleton, Request.trace_append, ← h.tx_eq, ← h.note_eq]
    rfl

/-- A session has read what its trace looked up. -/
theorem Session.Traced.mem_reads {s : Session Trace} {log : List Transaction}
    (h : s.Traced) (hs : s.Sound log) {k : Key} : k ∈ s.tx.reads ↔ k ∈ s.note.looked := by
  have hstart : s.start.reads = [] := by rw [hs.start_eq]; rfl
  rw [h.tx_eq, Request.mem_reads_afterAll, ← h.note_eq, hstart]
  simp only [List.not_mem_nil, false_or]

/-- A session has scanned what its trace searched. -/
theorem Session.Traced.mem_scans {s : Session Trace} {log : List Transaction}
    (h : s.Traced) (hs : s.Sound log) {e : Entity} : e ∈ s.tx.scans ↔ e ∈ s.note.searched := by
  have hstart : s.start.scans = [] := by rw [hs.start_eq]; rfl
  rw [h.tx_eq, Request.mem_scans_afterAll, ← h.note_eq, hstart]
  simp only [List.not_mem_nil, false_or]

/-- A session has written what its trace wrote. -/
theorem Session.Traced.mem_writes {s : Session Trace} {log : List Transaction}
    (h : s.Traced) (hs : s.Sound log) {k : Key} : k ∈ s.tx.writes ↔ k ∈ s.note.wrote := by
  rw [h.tx_eq, Request.mem_writes_afterAll, ← h.note_eq, hs.writes_start]
  simp only [List.not_mem_nil, false_or]

namespace World

/-- All notes of the world `w` are traces. -/
structure Traced (w : World Trace) : Prop where
  sessions : ∀ name s, w.sessions name = some s → s.Traced
  log : ∀ s ∈ w.log, s.Traced

variable {w : World Trace}

theorem Traced.begin (h : w.Traced) (name : Nat) (mode : TxMode) (isolation : Isolation) :
    (w.begin name mode isolation []).Traced where
  sessions i t ht := by
    rcases sessions_begin ht with rfl | ht
    · exact ⟨rfl, rfl⟩
    · exact h.sessions i t ht
  log := h.log

/-- A session that is asked is answered by its transaction. -/
theorem used_ask (w : World Trace) (s : Session Trace) (r : Request) :
    w.used (Op.access r.perform) (fun answer note => note ++ [(r, answer)]) s =
      { s with tx := r.after s.tx, note := s.note ++ [(r, r.answer s.tx)] } := by
  rw [used, Request.after, Request.answer, Op.access]
  cases r.perform s.tx <;> rfl

theorem Traced.ask (h : w.Traced) (name : Nat) (r : Request) : (w.step (.ask name r)).Traced where
  sessions i t ht := by
    rcases sessions_use ht with ⟨s, hs, rfl⟩ | ht
    · rw [used_ask]
      exact (h.sessions name s hs).ask r
    · exact h.sessions i t ht
  log := by
    rw [step, log_use]
    exact h.log

theorem Traced.commit (h : w.Traced) (name : Nat) : (w.commit name).Traced where
  sessions i t ht := h.sessions i t (sessions_commit ht)
  log := by
    rcases commit_cases w name with ⟨hlog, -⟩ | ⟨s, hs, -, hlog, -⟩
    · rw [hlog]
      exact h.log
    · rw [hlog]
      intro t ht
      rcases List.mem_append.1 ht with ht | ht
      · exact h.log t ht
      · rw [List.mem_singleton.1 ht]
        exact h.sessions name s hs

theorem traced_step (h : w.Traced) (e : Event) : (w.step e).Traced := by
  cases e with
  | begin name mode isolation => exact h.begin name mode isolation
  | ask name r => exact h.ask name r
  | commit name => exact h.commit name
  | rollback name => exact ⟨fun i t ht => h.sessions i t (sessions_rollback ht), h.log⟩
  | subscribe log => exact ⟨h.sessions, h.log⟩
  | drain log => exact ⟨h.sessions, h.log⟩

/-- In the world of a history every note is a trace. -/
theorem traced_run (mint : Mint) (events : List Event) : (run mint events).Traced :=
  List.foldlRecOn (motive := Traced) events step ⟨nofun, nofun⟩
    fun _ hw e _ => traced_step hw e

/-- What no event breaks in the world of a history holds of `run mint events`. -/
theorem run_induction {Q : World Trace → Prop} (mint : Mint) (events : List Event)
    (h0 : Q (init mint)) (hstep : ∀ w e, w.Sound → w.Traced → Q w → Q (w.step e)) :
    Q (run mint events) := by
  have h : (run mint events).Reachable ∧ (run mint events).Traced ∧ Q (run mint events) := by
    apply List.foldlRecOn (motive := fun w => w.Reachable ∧ w.Traced ∧ Q w) events step
    · exact ⟨.init mint, ⟨nofun, nofun⟩, h0⟩
    · intro w ⟨hw, ht, hQ⟩ e _
      exact ⟨reachable_step hw e, traced_step ht e, hstep w e hw.sound ht hQ⟩
  exact h.2.2

/-! ## Tables throughout a world -/

/-- The committed tables of `w` and all snapshots have the property `Q`. -/
structure Throughout (Q : Tables → Prop) (w : World Trace) : Prop where
  committed : Q w.store.committed.tables
  start : ∀ name s, w.sessions name = some s → Q s.start.view

theorem Throughout.mono {Q R : Tables → Prop} {w : World Trace} (h : w.Throughout Q)
    (hQR : ∀ t, Q t → R t) : w.Throughout R :=
  ⟨hQR _ h.committed, fun name s hs => hQR _ (h.start name s hs)⟩

/-- Apart from the tables that a commit leaves, no event brings about new ones. -/
theorem Throughout.after {Q : Tables → Prop} {w : World Trace} (h : w.Throughout Q) (e : Event)
    (hcommit : ∀ name s, e = .commit name → w.sessions name = some s →
      (w.step e).log = w.log ++ [s] → Q (w.store.committed.apply s.tx).tables) :
    (w.step e).Throughout Q := by
  cases e with
  | begin name mode isolation =>
    refine ⟨h.committed, fun i t ht => ?_⟩
    rcases sessions_begin ht with rfl | ht
    · exact h.committed
    · exact h.start i t ht
  | ask name r =>
    refine ⟨by rw [step, committed_use]; exact h.committed, fun i t ht => ?_⟩
    rcases sessions_use ht with ⟨s, hs, rfl⟩ | ht
    · exact h.start name s hs
    · exact h.start i t ht
  | commit name =>
    refine ⟨?_, fun i t ht => h.start i t (sessions_commit ht)⟩
    rcases commit_cases w name with ⟨-, hsame⟩ | ⟨s, hs, -, hlog, hnew⟩
    · rw [step, hsame]
      exact h.committed
    · rw [step, hnew]
      exact hcommit name s rfl hs hlog
  | rollback name => exact ⟨h.committed, fun i t ht => h.start i t (sessions_rollback ht)⟩
  | subscribe log => exact ⟨h.committed, h.start⟩
  | drain log =>
    refine ⟨?_, h.start⟩
    change Q (drain log w.store).committed.tables
    rw [committed_drain]
    exact h.committed

end World

/-! ## Records for examples -/

/-- An agent with the identifier `n`. -/
def Node.numbered (n : Nat) : Node :=
  { id := ⟨.ofNat 128 n⟩, kind := .agent, creationTime := .ofMoment .first }

/-- A vector with the identifier `n` between the nodes with these numbers. -/
def Vector.numbered (n origin destination : Nat) : Vector where
  id := ⟨.ofNat 128 n⟩
  origin := ⟨.ofNat 128 origin⟩
  destination := ⟨.ofNat 128 destination⟩
  creationTime := .ofMoment .first

/-- An info with the identifier `n` of the node `origin`. -/
def Info.numbered (n origin : Nat) : Info :=
  { id := ⟨.ofNat 128 n⟩, origin := ⟨.ofNat 128 origin⟩, creationTime := .ofMoment .first }

end Propagation
