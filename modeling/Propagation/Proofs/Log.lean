import Propagation.Store.Lemmas

/-!
# What a log of commits leaves

The committed tables with their accounts are nothing but the trace of the transactions that were
committed, in their order. So what the accounts say can be read off the log: a record is newer
than a point of the log if a later transaction wrote it, and a record that no later transaction
wrote is as it was at that point.

## Main definitions

* `Committed.applyAll`, `Committed.ofLog`: the effect of several commits.
* `Committed.Dated`: no account is ahead of the version.

## Main statements

* `Committed.applyAll_of_writes_nil`: commits that write nothing leave everything as it was.
* `Committed.recordNewer_applyAll`, `Committed.tableNewer_applyAll`: what the accounts say.
* `Committed.find?_applyAll`: records that nobody wrote are as before.
* `Committed.has_applyAll`: no record disappears.
* `Committed.index_applyAll`: the indexes change only with the vectors.
-/

namespace Propagation

open Std (ExtTreeMap)

namespace Tables

theorem entity_of_find? {t : Tables} {k : Key} {r : Record} (h : t.find? k = some r) :
    r.key.entity = k.entity := by
  cases k <;> obtain ⟨_, -, rfl⟩ := Option.map_eq_some_iff.1 h <;> rfl

theorem index_put {r : Record} (h : r.key.entity ≠ .vector) (t : Tables) :
    (t.put r).outgoing = t.outgoing ∧ (t.put r).incoming = t.incoming := by
  cases r <;> first | exact ⟨rfl, rfl⟩ | exact absurd rfl h

theorem index_copy {k : Key} (h : k.entity ≠ .vector) (source t : Tables) :
    (copy source k t).outgoing = t.outgoing ∧ (copy source k t).incoming = t.incoming := by
  rw [copy]
  split
  · rename_i r hr
    exact index_put (entity_of_find? hr ▸ h) t
  · exact ⟨rfl, rfl⟩

theorem has_put_of_has {t : Tables} {k : Key} (h : t.has k) (r : Record) : (t.put r).has k := by
  rw [has_put, h, Bool.or_true]

theorem has_put_self (r : Record) (t : Tables) : (t.put r).has r.key := by
  rw [has, find?_put_self]
  rfl

theorem has_copy_of_has {t : Tables} {k : Key} (h : t.has k) (source : Tables) (l : Key) :
    (copy source l t).has k := by
  rw [copy]
  split
  · exact has_put_of_has h _
  · exact h

end Tables

namespace Committed

/-- The effect of the commits in `log`, one after the other. -/
def applyAll (c : Committed) (log : List Transaction) : Committed :=
  log.foldl (fun c tx => c.apply tx) c

/-- What is committed once the transactions of `log` were committed, and no others. -/
def ofLog (log : List Transaction) : Committed := applyAll {} log

@[simp] theorem applyAll_nil (c : Committed) : c.applyAll [] = c := rfl

@[simp] theorem applyAll_cons (c : Committed) (tx : Transaction) (log : List Transaction) :
    c.applyAll (tx :: log) = (c.apply tx).applyAll log := rfl

/-- What no commit of `log` breaks, all of them do not break. -/
theorem applyAll_induction {Q : Committed → Prop} {log : List Transaction}
    (hQ : ∀ tx ∈ log, ∀ c, Q c → Q (c.apply tx)) {c : Committed} (h : Q c) :
    Q (c.applyAll log) := List.foldlRecOn log _ h fun c hc tx htx => hQ tx htx c hc

theorem ofLog_append (log more : List Transaction) :
    ofLog (log ++ more) = (ofLog log).applyAll more := List.foldl_append

theorem ofLog_concat (log : List Transaction) (tx : Transaction) :
    ofLog (log ++ [tx]) = (ofLog log).apply tx := ofLog_append log [tx]

/-! ## Commits that write nothing -/

/-- The commit of a transaction that wrote nothing leaves `c` as it was. -/
theorem apply_of_writes_nil {tx : Transaction} (h : tx.writes = []) (c : Committed) :
    c.apply tx = c := by
  rw [apply, h]
  rfl

theorem applyAll_of_writes_nil {log : List Transaction} (h : ∀ tx ∈ log, tx.writes = [])
    (c : Committed) : c.applyAll log = c := by
  apply applyAll_induction (Q := fun d => d = c)
  · intro tx htx d hd
    rw [apply_of_writes_nil (h tx htx), hd]
  · rfl

/-! ## Versions -/

/-- No account in `c` is ahead of its version. -/
structure Dated (c : Committed) : Prop where
  record : ∀ (k : Key) (v : Nat), c.recordVersions[k]? = some v → v ≤ c.version
  table : ∀ (e : Entity) (v : Nat), c.tableVersions[e]? = some v → v ≤ c.version

theorem version_le_apply (tx : Transaction) (c : Committed) :
    c.version ≤ (c.apply tx).version := by
  rw [version_apply]
  split <;> omega

/-- A commit that writes something raises `version` by one. -/
theorem version_apply_of_mem {tx : Transaction} {k : Key} (hk : k ∈ tx.writes) (c : Committed) :
    (c.apply tx).version = c.version + 1 := by
  have hne : tx.writes.isEmpty = false := by
    rw [List.isEmpty_eq_false_iff]
    exact List.ne_nil_of_mem hk
  rw [version_apply, hne]
  rfl

theorem Dated.apply {c : Committed} (h : c.Dated) (tx : Transaction) : (c.apply tx).Dated where
  record k v hv := by
    rw [recordVersions_apply] at hv
    by_cases hk : k ∈ tx.writes
    · rw [if_pos hk] at hv
      rw [version_apply_of_mem hk]
      exact Nat.le_of_eq (Option.some.inj hv).symm
    · rw [if_neg hk] at hv
      exact Nat.le_trans (h.record k v hv) (version_le_apply tx c)
  table e v hv := by
    rw [tableVersions_apply] at hv
    by_cases he : ∃ k ∈ tx.writes, k.entity = e
    · rw [if_pos he] at hv
      obtain ⟨k, hk, -⟩ := he
      rw [version_apply_of_mem hk]
      exact Nat.le_of_eq (Option.some.inj hv).symm
    · rw [if_neg he] at hv
      exact Nat.le_trans (h.table e v hv) (version_le_apply tx c)

theorem dated_empty : ({} : Committed).Dated :=
  ⟨fun k v hv => by simp at hv, fun e v hv => by simp at hv⟩

theorem dated_ofLog (log : List Transaction) : (ofLog log).Dated :=
  applyAll_induction (fun tx _ _ hc => hc.apply tx) dated_empty

/-- A record is newer than the earlier version `v` after a commit if the commit wrote it, or if it
was newer before. -/
theorem recordNewer_apply {c : Committed} {v : Nat} (hv : v ≤ c.version) (tx : Transaction)
    (k : Key) : (c.apply tx).recordNewer v k ↔ k ∈ tx.writes ∨ c.recordNewer v k := by
  rw [recordNewer, recordVersions_apply, recordNewer]
  by_cases hk : k ∈ tx.writes
  · simp [hk]; omega
  · simp [hk]

theorem tableNewer_apply {c : Committed} {v : Nat} (hv : v ≤ c.version) (tx : Transaction)
    (e : Entity) :
    (c.apply tx).tableNewer v e ↔ (∃ k ∈ tx.writes, k.entity = e) ∨ c.tableNewer v e := by
  rw [tableNewer, tableVersions_apply, tableNewer]
  by_cases hk : ∃ k ∈ tx.writes, k.entity = e
  · simp [hk]; omega
  · simp [hk]

/-- If each commit brings about `R` where it is a `hit`, and none undoes `R`, then several commits
bring it about if one of them is a hit. -/
theorem applyAll_iff {R : Committed → Prop} {hit : Transaction → Prop} {v : Nat}
    (hR : ∀ c : Committed, v ≤ c.version → ∀ tx, R (c.apply tx) ↔ hit tx ∨ R c)
    (log : List Transaction) (c : Committed) (hv : v ≤ c.version) :
    R (c.applyAll log) ↔ (∃ tx ∈ log, hit tx) ∨ R c := by
  induction log generalizing c with
  | nil => simp
  | cons tx log ih =>
    rw [applyAll_cons, ih _ (Nat.le_trans hv (version_le_apply tx c)), hR c hv tx]
    simp only [List.mem_cons, exists_eq_or_imp, or_assoc, or_left_comm]

/-- A record is newer than the present if one of the commits in `log` writes it. -/
theorem recordNewer_applyAll {c : Committed} (h : c.Dated) (log : List Transaction) (k : Key) :
    (c.applyAll log).recordNewer c.version k ↔ ∃ tx ∈ log, k ∈ tx.writes := by
  rw [applyAll_iff (R := fun d => d.recordNewer c.version k)
    (fun d hd tx => recordNewer_apply hd tx k) log c (Nat.le_refl _), recordNewer]
  cases hk : c.recordVersions[k]? with
  | none => simp
  | some v => simp [Nat.not_lt.2 (h.record k v hk)]

/-- A table is newer than the present if one of the commits in `log` writes to it. -/
theorem tableNewer_applyAll {c : Committed} (h : c.Dated) (log : List Transaction) (e : Entity) :
    (c.applyAll log).tableNewer c.version e ↔ ∃ tx ∈ log, ∃ k ∈ tx.writes, k.entity = e := by
  rw [applyAll_iff (R := fun d => d.tableNewer c.version e)
    (fun d hd tx => tableNewer_apply hd tx e) log c (Nat.le_refl _), tableNewer]
  cases he : c.tableVersions[e]? with
  | none => simp
  | some v => simp [Nat.not_lt.2 (h.table e v he)]

/-! ## Records -/

/-- Records that nobody in `log` wrote are as before. -/
theorem find?_applyAll {log : List Transaction} (hlog : ∀ tx ∈ log, tx.view.Keyed) {k : Key}
    (hk : ∀ tx ∈ log, k ∉ tx.writes) (c : Committed) :
    (c.applyAll log).tables.find? k = c.tables.find? k := by
  induction log generalizing c with
  | nil => rfl
  | cons tx log ih =>
    obtain ⟨htx, hlog⟩ := List.forall_mem_cons.1 hlog
    obtain ⟨hktx, hk⟩ := List.forall_mem_cons.1 hk
    rw [applyAll_cons, ih hlog hk, find?_apply htx, if_neg hktx]

/-- A property `Q` of tables that no copied record breaks is not broken by a commit. -/
theorem apply_induction {Q : Tables → Prop} {tx : Transaction}
    (hQ : ∀ k ∈ tx.writes, ∀ t, Q t → Q (Tables.copy tx.view k t)) {c : Committed}
    (h : Q c.tables) : Q (c.apply tx).tables := by
  rw [Committed.apply]
  split
  · exact h
  · simp only [applyKeys, tables_foldl_applyKey]
    exact List.foldlRecOn _ _ h fun t ht k hk => hQ k hk t ht

theorem keyed_apply {c : Committed} (h : c.tables.Keyed) (tx : Transaction) :
    (c.apply tx).tables.Keyed := by
  apply apply_induction (Q := Tables.Keyed)
  · intro k _ t ht
    exact ht.copy tx.view k
  · exact h

/-- The records of a log stand under their own keys. -/
theorem keyed_ofLog (log : List Transaction) : (ofLog log).tables.Keyed := by
  apply applyAll_induction (Q := fun c => c.tables.Keyed)
  · intro tx _ c hc
    exact keyed_apply hc tx
  · exact Tables.keyed_empty

/-- No commit makes a record disappear. -/
theorem has_apply {c : Committed} {k : Key} (h : c.tables.has k) (tx : Transaction) :
    (c.apply tx).tables.has k := by
  apply apply_induction (Q := fun t => t.has k)
  · intro l _ t ht
    exact Tables.has_copy_of_has ht tx.view l
  · exact h

theorem has_applyAll {c : Committed} {k : Key} (h : c.tables.has k) (log : List Transaction) :
    (c.applyAll log).tables.has k := by
  apply applyAll_induction (Q := fun d => d.tables.has k)
  · intro tx _ d hd
    exact has_apply hd tx
  · exact h

/-- The index changes in `applyAll` only with the vectors. -/
theorem index_applyAll {log : List Transaction}
    (h : ∀ tx ∈ log, ∀ k ∈ tx.writes, k.entity ≠ .vector) (c : Committed) :
    (c.applyAll log).tables.outgoing = c.tables.outgoing ∧
      (c.applyAll log).tables.incoming = c.tables.incoming := by
  apply applyAll_induction (Q := fun d => d.tables.outgoing = c.tables.outgoing ∧
    d.tables.incoming = c.tables.incoming)
  · intro tx htx d hd
    apply apply_induction (Q := fun t => t.outgoing = c.tables.outgoing ∧
      t.incoming = c.tables.incoming) _ hd
    intro k hk t ht
    obtain ⟨ho, hi⟩ := Tables.index_copy (h tx htx k hk) tx.view t
    exact ⟨ho.trans ht.1, hi.trans ht.2⟩
  · exact ⟨rfl, rfl⟩

end Committed

end Propagation
