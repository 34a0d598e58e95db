import Propagation.Store.Basic
import Propagation.Tables.Lemmas

/-!
# What ending a transaction does

A commit stores exactly the records that the transaction wrote and dates them, and a conflict
changes nothing. Accounts of reads and searches decide whether there is a conflict, and have no
other effect.

## Main statements

* `Committed.find?_apply`: what is found after a commit.
* `Committed.recordVersions_apply`: which commit last wrote a record, after a commit.
* `Store.commit_of_conflicts`, `Store.commit_of_not_conflicts`: the two ends of a transaction.
-/

namespace Propagation

open Std (ExtTreeMap)

namespace Committed

/-! ## Copying records -/

theorem tables_foldl_applyKey (view : Tables) (version : Nat) (keys : List Key) (c : Committed) :
    (keys.foldl (applyKey view version) c).tables =
      keys.foldl (fun t k => Tables.copy view k t) c.tables := by
  induction keys generalizing c with
  | nil => rfl
  | cons k keys ih => exact ih _

theorem version_foldl_applyKey (view : Tables) (version : Nat) (keys : List Key) (c : Committed) :
    (keys.foldl (applyKey view version) c).version = c.version := by
  induction keys generalizing c with
  | nil => rfl
  | cons k keys ih => exact ih _

theorem recordVersions_foldl_applyKey (view : Tables) (version : Nat) (keys : List Key)
    (c : Committed) (k : Key) :
    (keys.foldl (applyKey view version) c).recordVersions[k]? =
      if k ∈ keys then some version else c.recordVersions[k]? := by
  induction keys generalizing c with
  | nil => simp
  | cons l keys ih =>
    rw [List.foldl_cons, ih]
    simp only [applyKey, ExtTreeMap.getElem?_insert, Std.compare_eq_iff_eq, List.mem_cons]
    grind

theorem tableVersions_foldl_applyKey (view : Tables) (version : Nat) (keys : List Key)
    (c : Committed) (e : Entity) :
    (keys.foldl (applyKey view version) c).tableVersions[e]? =
      if ∃ k ∈ keys, k.entity = e then some version else c.tableVersions[e]? := by
  induction keys generalizing c with
  | nil => simp
  | cons l keys ih =>
    rw [List.foldl_cons, ih]
    by_cases hl : l.entity = e
    · by_cases hk : ∃ k ∈ keys, k.entity = e
      · simp [hl, hk]
      · simp [applyKey, hl, hk]
    · simp [applyKey, ExtTreeMap.getElem?_insert, hl]

end Committed

namespace Tables

/-- After several keys were copied, each of them holds what `source` holds there. -/
theorem find?_foldl_copy {source : Tables} (hs : source.Keyed) (keys : List Key) (l : Key)
    (t : Tables) :
    (keys.foldl (fun t k => copy source k t) t).find? l =
      if l ∈ keys then (source.find? l).or (t.find? l) else t.find? l := by
  induction keys generalizing t with
  | nil => simp
  | cons k keys ih =>
    rw [List.foldl_cons, ih, find?_copy hs]
    by_cases hk : k = l
    · subst hk
      cases source.find? k <;> by_cases hm : k ∈ keys <;> simp [hm]
    · have : l ≠ k := fun h => hk h.symm
      simp [hk, this]

end Tables

namespace Committed

/-! ## Applying a transaction -/

/-- What is found once `tx` has been committed: what it wrote, and all else as before. -/
theorem find?_apply {tx : Transaction} (h : tx.view.Keyed) (c : Committed) (k : Key) :
    (c.apply tx).tables.find? k =
      if k ∈ tx.writes then (tx.view.find? k).or (c.tables.find? k) else c.tables.find? k := by
  unfold apply
  split
  · rename_i he
    simp [List.isEmpty_iff.1 he]
  · simp only [applyKeys, tables_foldl_applyKey, Tables.find?_foldl_copy h]

/-- A commit raises `version` by one if it wrote something. -/
theorem version_apply (tx : Transaction) (c : Committed) :
    (c.apply tx).version = if tx.writes.isEmpty then c.version else c.version + 1 := by
  unfold apply
  split
  · rfl
  · simp only [applyKeys, version_foldl_applyKey]

/-- The records that a commit wrote are dated by it in `recordVersions`. -/
theorem recordVersions_apply (tx : Transaction) (c : Committed) (k : Key) :
    (c.apply tx).recordVersions[k]? =
      if k ∈ tx.writes then some (c.version + 1) else c.recordVersions[k]? := by
  unfold apply
  split
  · rename_i he
    simp [List.isEmpty_iff.1 he]
  · simp only [applyKeys, recordVersions_foldl_applyKey]

/-- The tables that a commit wrote to are dated by it in `tableVersions`. -/
theorem tableVersions_apply (tx : Transaction) (c : Committed) (e : Entity) :
    (c.apply tx).tableVersions[e]? =
      if ∃ k ∈ tx.writes, k.entity = e then some (c.version + 1) else c.tableVersions[e]? := by
  unfold apply
  split
  · rename_i he
    simp [List.isEmpty_iff.1 he]
  · simp only [applyKeys, tableVersions_foldl_applyKey]

theorem isStale_iff {c : Committed} {tx : Transaction} :
    c.isStale tx ↔ (∃ k, (k ∈ tx.reads ∨ k ∈ tx.writes) ∧ c.recordNewer tx.beginVersion k) ∨
      ∃ e ∈ tx.scans, c.tableNewer tx.beginVersion e := by
  simp only [isStale, Bool.or_eq_true, List.any_eq_true, List.mem_append]

end Committed

namespace Store

/-! ## Ending a transaction -/

theorem commit_of_conflicts {tx : Transaction} {s : Store} (h : s.conflicts tx = true) :
    s.commit tx = (.error (.conflict tx.id), s) := if_pos h

theorem commit_of_not_conflicts {tx : Transaction} {s : Store} (h : s.conflicts tx = false) :
    s.commit tx = (.ok (), publish tx.outbox { s with committed := s.committed.apply tx }) := by
  simp [commit, h]

@[simp] theorem committed_publish (messages : List Message) (s : Store) :
    (s.publish messages).committed = s.committed := rfl

/-- A read-committed transaction never meets a conflict. -/
theorem conflicts_readCommitted {tx : Transaction} (h : tx.isolation = .readCommitted)
    (s : Store) : s.conflicts tx = false := by
  simp [conflicts, h]

/-- To run `op` in a transaction leaves what is committed as it is. -/
@[simp] theorem committed_run {α : Type} (op : Op α) (tx : Transaction) (s : Store) :
    (s.run op tx).2.committed = s.committed := by
  unfold run
  split <;> rfl

end Store

end Propagation
