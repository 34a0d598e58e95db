import Propagation.Transaction.Lemmas
import Propagation.Tables.Lemmas

/-!
# Requests

Everything that can be asked of an open transaction, as data: to store a record, to look one up,
to search a table, to queue a message. A request is either refused, and then nothing has
happened, or it is noted in the transaction and answered from its view. How a request fares is
decided by the view and the mode alone.

## Main definitions

* `Request`, `Answer`: what can be asked and what is answered.
* `Request.answer`, `Request.after`: what a transaction answers, and the transaction afterwards.
* `Request.check`, `Request.reply`, `Request.note`: the three parts of this.
* `Request.stored?`, `Request.looked?`, `Request.searched`: what a request stores and reads.
* `Trace`, `Request.trace`, `Request.afterAll`: several requests with what is answered to them.

## Main statements

* `Request.answer_eq`, `Request.after_of_ok`, `Request.after_of_error`: how the parts make up the
  whole.
* `Request.view_after`, `Request.mem_writes_after` and siblings: what becomes of a transaction.
* `Request.mem_reads_afterAll` and siblings: its accounts, read off a trace.
-/

namespace Propagation

/-- What can be asked of an open transaction. -/
inductive Request
  /-- Store a new record. -/
  | insert (r : Record)
  /-- Replace a stored record. -/
  | revise (r : Revision)
  /-- Look up a record. -/
  | find (k : Key)
  | nodes (q : NodeQuery)
  | vectors (q : VectorQuery)
  | infos (q : InfoQuery)
  | transmissions (q : TransmissionQuery)
  | transformations (q : TransformationQuery)
  /-- Queue a message. -/
  | queue (m : Message)

/-- What is answered to a request that is not refused. -/
inductive Answer
  | done
  | record (found : Option Record)
  | nodes (found : List Node)
  | vectors (found : List Vector)
  | infos (found : List Info)
  | transmissions (found : List Transmission)
  | transformations (found : List Transformation)
  deriving DecidableEq

section Results

variable {σ α : Type}

/-- What a computation answers, without the state in which it ends. -/
def outcome : EStateM.Result Error σ α → Except Error α
  | .ok a _ => .ok a
  | .error e _ => .error e

/-- The state in which a computation ends, also where it fails. -/
def final : EStateM.Result Error σ α → σ
  | .ok _ s => s
  | .error _ s => s

/-- A run that fails with `e` ends somewhere. -/
theorem Op.eq_error_of_outcome {r : EStateM.Result Error σ α} {e : Error}
    (h : outcome r = .error e) : r = .error e (final r) := by
  cases r with
  | ok a s => cases h
  | error e' s => cases h; rfl

/-- A run that succeeds with `v` ends somewhere. -/
theorem Op.eq_ok_of_outcome {r : EStateM.Result Error σ α} {v : α} (h : outcome r = .ok v) :
    r = .ok v (final r) := by
  cases r with
  | ok u s => cases h; rfl
  | error e s => cases h

/-- Where `a` fails, the handler `f` goes on from what `a` left behind. -/
theorem Op.tryCatch_apply (a : EStateM Error σ α) (f : Error → EStateM Error σ α) (s : σ) :
    tryCatch a f s = match a s with
      | .ok v s' => .ok v s'
      | .error e s' => f e s' := by
  change EStateM.tryCatch a f s = _
  delta EStateM.tryCatch
  cases a s <;> rfl

end Results

/-- Requests in their order, each with what was answered to it. -/
abbrev Trace := List (Request × Except Error Answer)

namespace Request

/-- Carry out a request. -/
def perform : Request → Access Answer
  | insert r => do
    Access.insert r
    return .done
  | revise r => do
    Access.revise r
    return .done
  | find k => return .record (← Access.find? k)
  | nodes q => return .nodes (← Access.nodes q)
  | vectors q => return .vectors (← Access.vectors q)
  | infos q => return .infos (← Access.infos q)
  | transmissions q => return .transmissions (← Access.transmissions q)
  | transformations q => return .transformations (← Access.transformations q)
  | queue m => do
    modify (·.queue m)
    return .done

/-- What the transaction `tx` answers to the request `r`. -/
def answer (r : Request) (tx : Transaction) : Except Error Answer := outcome (r.perform tx)

/-- The transaction `tx` after the request `r`. -/
def after (r : Request) (tx : Transaction) : Transaction := final (r.perform tx)

/-! ## The parts of a request -/

/-- The record that a request asks to store. -/
def stored? : Request → Option Record
  | insert r => some r
  | revise r => some r.record
  | _ => none

/-- The key that a request looks up. -/
def looked? : Request → Option Key
  | find k => some k
  | _ => none

/-- The tables that a request searches. The network of a vector is that of its origin, and the
origin of a transmission that of its info. -/
def searched : Request → List Entity
  | nodes _ => [.node]
  | vectors q => if q.network.isSome then [.vector, .node] else [.vector]
  | infos _ => [.info]
  | transmissions q => if q.origin.isSome then [.transmission, .info] else [.transmission]
  | transformations _ => [.transformation]
  | _ => []

end Request

namespace Trace

/-- The keys that were looked up, whether or not anything was found. -/
def looked (t : Trace) : List Key := t.filterMap (·.1.looked?)

/-- The tables that were searched. -/
def searched (t : Trace) : List Entity := t.flatMap (·.1.searched)

/-- The keys of the records that were stored. -/
def wrote (t : Trace) : List Key :=
  t.filterMap fun (r, a) => if a.isOk then r.stored?.map Record.key else none

end Trace

namespace Request

/-- Check that the record that a request asks to store fits the tables `t`. -/
def accept (t : Tables) : Request → Except Error Unit
  | insert r => r.accept t
  | revise r => r.accept t
  | _ => .ok ()

/-- Check that the request `r` is admitted: what it stores has to fit, and then the transaction has
to be one that writes. -/
def check (r : Request) (tx : Transaction) : Except Error Unit :=
  match r.stored? with
  | none => .ok ()
  | some _ =>
    match r.accept tx.view, tx.mode with
    | .error e, _ => .error e
    | .ok (), .readOnly => .error (.readOnly tx.id)
    | .ok (), .readWrite => .ok ()

/-- What the tables `t` answer to a request that is admitted. -/
def reply (t : Tables) : Request → Answer
  | insert _ | revise _ | queue _ => .done
  | find k => .record (t.find? k)
  | nodes q => .nodes (t.selectNodes q)
  | vectors q => .vectors (t.selectVectors q)
  | infos q => .infos (t.selectInfos q)
  | transmissions q => .transmissions (t.selectTransmissions q)
  | transformations q => .transformations (t.selectTransformations q)

/-- What a request that is admitted leaves in the transaction. -/
def note : Request → Transaction → Transaction
  | insert r, tx => tx.store r
  | revise r, tx => tx.store r.record
  | find k, tx => tx.noteRead k
  | nodes _, tx => tx.noteScan .node
  | vectors q, tx =>
    if q.network.isSome then (tx.noteScan .vector).noteScan .node else tx.noteScan .vector
  | infos _, tx => tx.noteScan .info
  | transmissions q, tx =>
    if q.origin.isSome then (tx.noteScan .transmission).noteScan .info
    else tx.noteScan .transmission
  | transformations _, tx => tx.noteScan .transformation
  | queue m, tx => tx.queue m

/-! ## The whole of a request -/

/-- Storing a record by what the check says. -/
private theorem perform_store (accepted : Except Error Unit) (s : Record) (tx : Transaction) :
    (do Access.recordIf accepted s; return Answer.done : Access Answer) tx =
      match accepted, tx.mode with
      | .error e, _ => .error e tx
      | .ok (), .readOnly => .error (.readOnly tx.id) tx
      | .ok (), .readWrite => .ok .done (tx.store s) := by
  simp only [bind, EStateM.bind, Access.recordIf_apply, Access.record_apply]
  cases accepted
  · rfl
  · cases tx.mode <;> rfl

/-- A request is refused by its `check`, and else noted and answered. -/
theorem perform_apply (r : Request) (tx : Transaction) :
    r.perform tx = match r.check tx with
      | .error e => .error e tx
      | .ok () => .ok (r.reply tx.view) (r.note tx) := by
  cases r with
  | insert s =>
    rw [show (insert s).perform tx = _ from perform_store (s.accept tx.view) s tx]
    simp only [check, stored?, accept, reply, note]
    cases s.accept tx.view <;> cases tx.mode <;> rfl
  | revise s =>
    rw [show (revise s).perform tx = _ from perform_store (s.accept tx.view) s.record tx]
    simp only [check, stored?, accept, reply, note]
    cases s.accept tx.view <;> cases tx.mode <;> rfl
  | vectors q =>
    simp only [perform, bind, EStateM.bind, Access.vectors_apply]
    rfl
  | transmissions q =>
    simp only [perform, bind, EStateM.bind, Access.transmissions_apply]
    rfl
  | _ => rfl

theorem answer_eq (r : Request) (tx : Transaction) :
    r.answer tx = (r.check tx).map fun _ => r.reply tx.view := by
  rw [answer, perform_apply]
  cases r.check tx <;> rfl

theorem after_of_ok {r : Request} {tx : Transaction} (h : r.check tx = .ok ()) :
    r.after tx = r.note tx := by
  rw [after, perform_apply, h]
  rfl

/-- A request that its `check` refuses leaves the transaction as it was. -/
theorem after_of_error {r : Request} {tx : Transaction} {e : Error} (h : r.check tx = .error e) :
    r.after tx = tx := by
  rw [after, perform_apply, h]
  rfl

theorem check_of_answer {r : Request} {tx : Transaction} {a : Answer} (h : r.answer tx = .ok a) :
    r.check tx = .ok () ∧ a = r.reply tx.view := by
  rw [answer_eq] at h
  cases hc : r.check tx with
  | error e => rw [hc] at h; cases h
  | ok u => rw [hc] at h; cases h; exact ⟨rfl, rfl⟩

/-- What is answered with an error is refused by `check`. -/
theorem check_of_answer_error {r : Request} {tx : Transaction} {e : Error}
    (h : r.answer tx = .error e) : r.check tx = .error e := by
  rw [answer_eq] at h
  cases hc : r.check tx with
  | ok u => rw [hc] at h; cases h
  | error e' => rw [hc] at h; cases h; rfl

/-- A request that stores nothing is always admitted. -/
theorem check_of_stored?_none {r : Request} (h : r.stored? = none) (tx : Transaction) :
    r.check tx = .ok () := by
  rw [check, h]

/-- A request to store `s` is admitted just if `s` fits and the transaction is one that writes. -/
theorem check_ok_iff {r : Request} {s : Record} (h : r.stored? = some s) (tx : Transaction) :
    r.check tx = .ok () ↔ r.accept tx.view = .ok () ∧ tx.mode = .readWrite := by
  rw [check, h]
  cases r.accept tx.view <;> cases tx.mode <;> simp

/-! ## What becomes of a transaction -/

/-- The record that the request `r` really stores in `tx`. -/
def writes (r : Request) (tx : Transaction) : Option Record :=
  match r.check tx with
  | .ok () => r.stored?
  | .error _ => none

theorem writes_of_ok {r : Request} {tx : Transaction} (h : r.check tx = .ok ()) :
    r.writes tx = r.stored? := by
  rw [writes, h]

theorem writes_of_error {r : Request} {tx : Transaction} {e : Error} (h : r.check tx = .error e) :
    r.writes tx = none := by
  rw [writes, h]

theorem writes_eq_some {r : Request} {tx : Transaction} {s : Record} :
    r.writes tx = some s ↔
      r.stored? = some s ∧ r.accept tx.view = .ok () ∧ tx.mode = .readWrite := by
  constructor
  · intro h
    cases hc : r.check tx with
    | error e => rw [writes_of_error hc] at h; cases h
    | ok u =>
      rw [writes_of_ok hc] at h
      exact ⟨h, (check_ok_iff h tx).1 hc⟩
  · rintro ⟨h, hc⟩
    rw [writes_of_ok ((check_ok_iff h tx).2 hc), h]

/-- Only what stores something can be refused. -/
theorem stored?_of_error {r : Request} {tx : Transaction} {e : Error} (h : r.check tx = .error e) :
    ∃ s, r.stored? = some s := by
  cases hs : r.stored? with
  | none => rw [check_of_stored?_none hs] at h; cases h
  | some s => exact ⟨s, rfl⟩

theorem looked?_of_stored? {r : Request} {s : Record} (h : r.stored? = some s) :
    r.looked? = none := by
  cases r <;> first | rfl | cases h

theorem searched_of_stored? {r : Request} {s : Record} (h : r.stored? = some s) :
    r.searched = [] := by
  cases r <;> first | rfl | cases h

section After

variable (r : Request) (tx : Transaction)

/-- What a request leaves in place whatever it asks. -/
private theorem note_keeps : (r.note tx).id = tx.id ∧ (r.note tx).mode = tx.mode ∧
    (r.note tx).isolation = tx.isolation ∧ (r.note tx).beginVersion = tx.beginVersion := by
  cases r <;> simp only [note] <;> (try split) <;> exact ⟨rfl, rfl, rfl, rfl⟩

private theorem after_keeps : (r.after tx).id = tx.id ∧ (r.after tx).mode = tx.mode ∧
    (r.after tx).isolation = tx.isolation ∧ (r.after tx).beginVersion = tx.beginVersion := by
  cases h : r.check tx with
  | error e => rw [after_of_error h]; exact ⟨rfl, rfl, rfl, rfl⟩
  | ok u => rw [after_of_ok h]; exact note_keeps r tx

@[simp] theorem mode_after : (r.after tx).mode = tx.mode := (after_keeps r tx).2.1

@[simp] theorem isolation_after : (r.after tx).isolation = tx.isolation := (after_keeps r tx).2.2.1

@[simp] theorem beginVersion_after : (r.after tx).beginVersion = tx.beginVersion :=
  (after_keeps r tx).2.2.2

/-- The view changes by the record that `r` stores, and by nothing else. -/
theorem view_after : (r.after tx).view =
    match r.writes tx with
    | some s => tx.view.put s
    | none => tx.view := by
  cases h : r.check tx with
  | error e => rw [after_of_error h, writes_of_error h]
  | ok u =>
    rw [after_of_ok h, writes_of_ok h]
    cases r <;> simp only [note, stored?] <;> (try split) <;> rfl

/-- The account of writes grows by the key of the record that `r` stores. -/
theorem mem_writes_after {k : Key} :
    k ∈ (r.after tx).writes ↔ k ∈ tx.writes ∨ (r.writes tx).map Record.key = some k := by
  cases h : r.check tx with
  | error e => simp [after_of_error h, writes_of_error h]
  | ok u =>
    rw [after_of_ok h, writes_of_ok h]
    cases r <;> simp only [note, stored?] <;> (try split) <;>
      simp [Transaction.queue, or_comm, eq_comm]

/-- Whatever the answer, the key that `r` looks up is noted. -/
theorem mem_reads_after {k : Key} :
    k ∈ (r.after tx).reads ↔ k ∈ tx.reads ∨ r.looked? = some k := by
  cases h : r.check tx with
  | error e =>
    obtain ⟨s, hs⟩ := stored?_of_error h
    simp [after_of_error h, looked?_of_stored? hs]
  | ok u =>
    rw [after_of_ok h]
    cases r <;> simp only [note, looked?] <;> (try split) <;>
      simp [Transaction.queue, Transaction.store, Transaction.noteScan, or_comm, eq_comm]

/-- The tables that `r` searches are noted. -/
theorem mem_scans_after {e : Entity} :
    e ∈ (r.after tx).scans ↔ e ∈ tx.scans ∨ e ∈ r.searched := by
  cases h : r.check tx with
  | error e =>
    obtain ⟨s, hs⟩ := stored?_of_error h
    simp [after_of_error h, searched_of_stored? hs]
  | ok u =>
    rw [after_of_ok h]
    cases r <;> simp only [note, searched] <;> (try split) <;>
      simp [Transaction.queue, Transaction.store, Transaction.noteRead] <;> grind

end After

/-! ## Several requests -/

/-- The transaction `tx` after the requests `rs`. -/
def afterAll (rs : List Request) (tx : Transaction) : Transaction :=
  rs.foldl (fun tx r => r.after tx) tx

/-- Several requests, one after the other, each with its `answer`. -/
def trace : List Request → Transaction → Trace
  | [], _ => []
  | r :: rs, tx => (r, r.answer tx) :: trace rs (r.after tx)

@[simp] theorem afterAll_nil (tx : Transaction) : afterAll [] tx = tx := rfl

@[simp] theorem afterAll_cons (r : Request) (rs : List Request) (tx : Transaction) :
    afterAll (r :: rs) tx = afterAll rs (r.after tx) := rfl

theorem afterAll_append (rs ss : List Request) (tx : Transaction) :
    afterAll (rs ++ ss) tx = afterAll ss (afterAll rs tx) := List.foldl_append

theorem trace_append (rs ss : List Request) (tx : Transaction) :
    trace (rs ++ ss) tx = trace rs tx ++ trace ss (afterAll rs tx) := by
  induction rs generalizing tx with
  | nil => rfl
  | cons r rs ih => rw [List.cons_append, trace, ih, trace, afterAll_cons, List.cons_append]

@[simp] theorem map_fst_trace (rs : List Request) (tx : Transaction) :
    (trace rs tx).map Prod.fst = rs := by
  induction rs generalizing tx with
  | nil => rfl
  | cons r rs ih => rw [trace, List.map_cons, ih]

/-- What was looked up is what the requests of `trace` look up. -/
theorem mem_reads_afterAll (rs : List Request) (tx : Transaction) {k : Key} :
    k ∈ (afterAll rs tx).reads ↔ k ∈ tx.reads ∨ k ∈ (trace rs tx).looked := by
  induction rs generalizing tx with
  | nil => simp [trace, Trace.looked]
  | cons r rs ih =>
    rw [afterAll_cons, ih, mem_reads_after]
    cases hr : r.looked? <;> simp [trace, Trace.looked, hr, or_assoc, eq_comm]

/-- What was searched is what the requests of `trace` search. -/
theorem mem_scans_afterAll (rs : List Request) (tx : Transaction) {e : Entity} :
    e ∈ (afterAll rs tx).scans ↔ e ∈ tx.scans ∨ e ∈ (trace rs tx).searched := by
  induction rs generalizing tx with
  | nil => simp [trace, Trace.searched]
  | cons r rs ih =>
    rw [afterAll_cons, ih, mem_scans_after]
    simp [trace, Trace.searched, or_assoc]

/-- What was written is what the requests of `trace` store, where they are not refused. -/
theorem mem_writes_afterAll (rs : List Request) (tx : Transaction) {k : Key} :
    k ∈ (afterAll rs tx).writes ↔ k ∈ tx.writes ∨ k ∈ (trace rs tx).wrote := by
  induction rs generalizing tx with
  | nil => simp [trace, Trace.wrote]
  | cons r rs ih =>
    rw [afterAll_cons, ih, mem_writes_after, trace]
    cases h : r.check tx with
    | error e => simp [Trace.wrote, answer_eq, writes_of_error h, h, Except.map, Except.isOk,
        Except.toBool]
    | ok u =>
      cases hr : r.stored? <;> simp [Trace.wrote, answer_eq, writes_of_ok h, h, hr, Except.map,
        Except.isOk, Except.toBool, or_assoc, @eq_comm _ k]

end Request

end Propagation
