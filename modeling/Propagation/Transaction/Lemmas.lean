import Propagation.Transaction.Access

/-!
# What access does

One equation for each access: what it answers and what it leaves in the transaction. Looking up
and searching only note what they did; storing changes the view and the account of writes
together, or nothing at all.

## Main statements

* `Access.insert_apply`, `Access.revise_apply`: storing, by whether it is accepted.
* `Access.insert_of_accept`, `Access.revise_of_accept`: what may be stored is stored.
* `Access.recordIf_error`: what fails to store leaves the transaction as it was.
* `Access.require_apply`, `Access.vectors_apply`, `Access.transmissions_apply`: looking up and
  searching.
-/

namespace Propagation

namespace Transaction

@[simp] theorem view_noteRead (k : Key) (tx : Transaction) : (tx.noteRead k).view = tx.view := rfl

@[simp] theorem view_noteScan (e : Entity) (tx : Transaction) :
    (tx.noteScan e).view = tx.view := rfl

@[simp] theorem view_store (r : Record) (tx : Transaction) :
    (tx.store r).view = tx.view.put r := rfl

@[simp] theorem view_queue (m : Message) (tx : Transaction) : (tx.queue m).view = tx.view := rfl

@[simp] theorem writes_noteRead (k : Key) (tx : Transaction) :
    (tx.noteRead k).writes = tx.writes := rfl

@[simp] theorem writes_noteScan (e : Entity) (tx : Transaction) :
    (tx.noteScan e).writes = tx.writes := rfl

@[simp] theorem mem_writes_store {r : Record} {tx : Transaction} {k : Key} :
    k ∈ (tx.store r).writes ↔ k = r.key ∨ k ∈ tx.writes := List.mem_insert_iff

@[simp] theorem mem_reads_noteRead {k l : Key} {tx : Transaction} :
    l ∈ (tx.noteRead k).reads ↔ l = k ∨ l ∈ tx.reads := List.mem_insert_iff

@[simp] theorem mem_scans_noteScan {d e : Entity} {tx : Transaction} :
    d ∈ (tx.noteScan e).scans ↔ d = e ∨ d ∈ tx.scans := List.mem_insert_iff

end Transaction

namespace Access

variable {α : Type}

/-! ## Storing -/

theorem record_apply (r : Record) (tx : Transaction) :
    record r tx = match tx.mode with
      | .readOnly => .error (.readOnly tx.id) tx
      | .readWrite => .ok () (tx.store r) := by
  obtain ⟨_, mode, _⟩ := tx
  cases mode <;> rfl

theorem recordIf_apply (accepted : Except Error Unit) (r : Record) (tx : Transaction) :
    recordIf accepted r tx = match accepted with
      | .error e => .error e tx
      | .ok () => record r tx := by
  cases accepted <;> rfl

theorem insert_apply (r : Record) (tx : Transaction) :
    insert r tx = recordIf (r.accept tx.view) r tx := rfl

theorem revise_apply (r : Revision) (tx : Transaction) :
    revise r tx = recordIf (r.accept tx.view) r.record tx := rfl

/-- A record that `Record.accept` allows is stored, in a transaction that may write. -/
theorem insert_of_accept {r : Record} {tx : Transaction} (hr : r.accept tx.view = .ok ())
    (hmode : tx.mode = .readWrite) : insert r tx = .ok () (tx.store r) := by
  rw [insert_apply, hr, recordIf_apply, record_apply, hmode]

/-- A revision that `Revision.accept` allows is stored, in a transaction that may write. -/
theorem revise_of_accept {r : Revision} {tx : Transaction} (hr : r.accept tx.view = .ok ())
    (hmode : tx.mode = .readWrite) : revise r tx = .ok () (tx.store r.record) := by
  rw [revise_apply, hr, recordIf_apply, record_apply, hmode]

/-- A record that is not stored leaves the transaction as it was. -/
theorem recordIf_error {accepted : Except Error Unit} {r : Record} {tx tx' : Transaction}
    {e : Error} (h : recordIf accepted r tx = .error e tx') : tx' = tx := by
  rw [recordIf_apply] at h
  split at h
  · cases h; rfl
  · rw [record_apply] at h
    split at h
    · cases h; rfl
    · cases h

/-- A record that is stored was accepted, and the transaction may write. -/
theorem recordIf_ok {accepted : Except Error Unit} {r : Record} {tx tx' : Transaction}
    (h : recordIf accepted r tx = .ok () tx') :
    accepted = .ok () ∧ tx.mode = .readWrite ∧ tx' = tx.store r := by
  rw [recordIf_apply] at h
  split at h
  · cases h
  · rw [record_apply] at h
    split at h
    · cases h
    · rename_i hm
      cases h
      exact ⟨rfl, hm, rfl⟩

/-! ## Looking up -/

theorem look_apply (k : Key) (f : Tables → Option α) (tx : Transaction) :
    look k f tx = .ok (f tx.view) (tx.noteRead k) := rfl

theorem require_apply (k : Key) (f : Tables → Option α) (tx : Transaction) :
    require k f tx = match f tx.view with
      | some a => .ok a (tx.noteRead k)
      | none => .error (.missing k) (tx.noteRead k) := by
  simp only [require, bind, EStateM.bind, look_apply]
  cases f tx.view <;> rfl

theorem requireNode_of_some {i : NodeId} {n : Node} {tx : Transaction}
    (h : tx.view.nodes[i]? = some n) : requireNode i tx = .ok n (tx.noteRead (.node i)) := by
  rw [requireNode, require_apply, h]

theorem requireNode_of_none {i : NodeId} {tx : Transaction} (h : tx.view.nodes[i]? = none) :
    requireNode i tx = .error (.missing (.node i)) (tx.noteRead (.node i)) := by
  rw [requireNode, require_apply, h]

/-! ## Searching -/

theorem vectors_apply (q : VectorQuery) (tx : Transaction) :
    vectors q tx = .ok (tx.view.selectVectors q)
      (if q.network.isSome then (tx.noteScan .vector).noteScan .node else tx.noteScan .vector) := by
  obtain ⟨_, _, network, _⟩ := q
  cases network <;> rfl

theorem transmissions_apply (q : TransmissionQuery) (tx : Transaction) :
    transmissions q tx = .ok (tx.view.selectTransmissions q)
      (if q.origin.isSome then (tx.noteScan .transmission).noteScan .info
        else tx.noteScan .transmission) := by
  obtain ⟨_, origin, _⟩ := q
  cases origin <;> rfl

end Access

end Propagation
