import Mathlib.Data.List.Induction
import Mathlib.Order.Bounds.Basic
import Propagation.Proofs.History

/-!
# What versions say

The commits that write something are numbered, from one. The version is the number of the last of
them. Each committed record carries the number of the last commit that wrote it, and each table the
greatest number of its records. An open transaction remembers the version at which it began, and so
a number tells whether a record is still the one that the transaction found.

All this is read off the log of what was committed: one lemma says what a commit adds to it.

## Main definitions

* `Committed.counted`: the commits of a log that are numbered.
* `Committed.LastWrote`: the number of the last commit that wrote a record.
* `Committed.Accounts`: the accounts are those of a log.

## Main statements

* `Committed.lastWrote_concat`: what one more commit makes of these numbers.
* `Committed.Accounts.apply`: a commit keeps its accounts.
* `World.Reachable.versions`: the accounts, and what they say of open transactions.
-/

namespace Propagation

namespace Committed

/-! ## Numbered commits -/

/-- The transactions of `log` that wrote something. Their commits are numbered in this order, from
one. -/
def counted (log : List Transaction) : List Transaction := log.filter fun tx => !tx.writes.isEmpty

/-- The commit with the number `n` is the last of `log` that wrote the record under the key `k`. -/
def LastWrote (log : List Transaction) (k : Key) (n : Nat) : Prop :=
  ∃ before tx after, counted log = before ++ tx :: after ∧ n = before.length + 1 ∧ k ∈ tx.writes ∧
    ∀ u ∈ after, k ∉ u.writes

variable {log : List Transaction} {tx : Transaction} {k : Key} {n : Nat}

theorem length_counted_le (log : List Transaction) : (counted log).length ≤ log.length :=
  List.length_filter_le _ _

theorem counted_concat_of_empty (h : tx.writes.isEmpty = true) :
    counted (log ++ [tx]) = counted log := by
  simp [counted, h]

theorem counted_concat_of_not_empty (h : tx.writes.isEmpty = false) :
    counted (log ++ [tx]) = counted log ++ [tx] := by
  simp [counted, h]

/-- A place in `xs ++ [x]` is the new end `x`, or a place in `xs`. -/
theorem concat_eq_append_cons {α : Type} {xs before after : List α} {x y : α} :
    xs ++ [x] = before ++ y :: after ↔
      (after = [] ∧ xs = before ∧ x = y) ∨
        ∃ rest, after = rest ++ [x] ∧ xs = before ++ y :: rest := by
  constructor
  · intro h
    rcases List.eq_nil_or_concat after with rfl | ⟨rest, z, rfl⟩
    · obtain ⟨hxs, hx⟩ := List.append_inj' h rfl
      exact .inl ⟨rfl, hxs, (List.cons.inj hx).1⟩
    · have hsplit : xs ++ [x] = (before ++ y :: rest) ++ [z] := by simpa using h
      obtain ⟨hxs, hx⟩ := List.append_inj' hsplit rfl
      exact .inr ⟨rest, by simp [(List.cons.inj hx).1], hxs⟩
  · rintro (⟨rfl, rfl, rfl⟩ | ⟨rest, rfl, rfl⟩)
    · rfl
    · simp

/-- What the commit of `tx` writes was last written by it, and everything else is as in `log`. -/
theorem lastWrote_concat : LastWrote (log ++ [tx]) k n ↔
    if k ∈ tx.writes then n = (counted log).length + 1 else LastWrote log k n := by
  cases he : tx.writes.isEmpty with
  | true =>
    have hk : k ∉ tx.writes := by simp [List.isEmpty_iff.1 he]
    rw [if_neg hk, LastWrote, counted_concat_of_empty he, LastWrote]
  | false =>
    simp only [LastWrote, counted_concat_of_not_empty he, concat_eq_append_cons]
    split
    case isTrue hk =>
      constructor
      · rintro ⟨before, u, after, ⟨rfl, rfl, rfl⟩ | ⟨rest, rfl, -⟩, rfl, -, hlast⟩
        · rfl
        · exact absurd hk (hlast tx (by simp))
      · rintro rfl
        exact ⟨_, tx, [], .inl ⟨rfl, rfl, rfl⟩, rfl, hk, by simp⟩
    case isFalse hk =>
      constructor
      · rintro ⟨before, u, after, ⟨rfl, rfl, rfl⟩ | ⟨rest, rfl, hlog⟩, rfl, hu, hlast⟩
        · exact absurd hu hk
        · exact ⟨before, u, rest, hlog, rfl, hu, fun w hw => hlast w (List.mem_append_left _ hw)⟩
      · rintro ⟨before, u, after, hlog, rfl, hu, hlast⟩
        refine ⟨before, u, after ++ [tx], .inr ⟨after, rfl, hlog⟩, rfl, hu, fun w hw => ?_⟩
        rcases List.mem_append.1 hw with hw | hw
        · exact hlast w hw
        · rwa [List.mem_singleton.1 hw]

/-! ## The accounts of a log -/

/-- The accounts of what is committed, its version and its numbers, are those of `log`. -/
structure Accounts (c : Committed) (log : List Transaction) : Prop extends c.Dated where
  /-- The version counts the commits that wrote something. -/
  version_eq : c.version = (counted log).length
  /-- Each committed record has a number, and nothing else has. -/
  isSome_iff : ∀ k, c.recordVersions[k]?.isSome ↔ c.tables.has k
  /-- That is the number of the last commit that wrote the record. -/
  record_iff : ∀ k n, c.recordVersions[k]? = some n ↔ LastWrote log k n
  /-- A table without records has no number. -/
  none_iff : ∀ e, c.tableVersions[e]? = none ↔ ∀ k, c.tables.has k → k.entity ≠ e
  /-- Any other has the greatest number of its records. -/
  table_iff : ∀ e n, c.tableVersions[e]? = some n ↔
    IsGreatest {m | ∃ k : Key, k.entity = e ∧ c.recordVersions[k]? = some m} n

theorem accounts_empty : ({} : Committed).Accounts [] where
  toDated := dated_empty
  version_eq := rfl
  isSome_iff k := by cases k <;> simp [Tables.has, Tables.find?]
  record_iff k n := by simp [LastWrote, counted]
  none_iff e := by
    refine iff_of_true (by simp) fun k hk => ?_
    cases k <;> simp [Tables.has, Tables.find?] at hk
  table_iff e n := by
    refine iff_of_false (by simp) ?_
    rintro ⟨⟨k, -, hk⟩, -⟩
    simp at hk

/-- Whatever the commit of `tx` writes is committed after it, if it is in the view of `tx`. -/
theorem has_apply_iff (hview : tx.view.Keyed) (hwrites : ∀ k ∈ tx.writes, tx.view.has k)
    (c : Committed) : (c.apply tx).tables.has k ↔ k ∈ tx.writes ∨ c.tables.has k := by
  rw [Tables.has, find?_apply hview]
  by_cases hk : k ∈ tx.writes
  · obtain ⟨r, hr⟩ := Option.isSome_iff_exists.1 (hwrites k hk)
    simp [hk, hr]
  · simp [hk, Tables.has]

/-- A commit keeps the accounts, of a log that then ends with `tx`. -/
theorem Accounts.apply {c : Committed} (h : c.Accounts log) (hview : tx.view.Keyed)
    (hwrites : ∀ k ∈ tx.writes, tx.view.has k) : (c.apply tx).Accounts (log ++ [tx]) where
  toDated := h.toDated.apply tx
  version_eq := by
    rw [version_apply, h.version_eq]
    cases he : tx.writes.isEmpty with
    | true => rw [counted_concat_of_empty he]; rfl
    | false => rw [counted_concat_of_not_empty he, List.length_append]; rfl
  isSome_iff k := by
    rw [recordVersions_apply, has_apply_iff hview hwrites, ← h.isSome_iff]
    by_cases hk : k ∈ tx.writes <;> simp [hk]
  record_iff k n := by
    rw [recordVersions_apply, lastWrote_concat, ← h.record_iff, ← h.version_eq]
    split
    · rw [Option.some.injEq, eq_comm]
    · rfl
  none_iff e := by
    rw [tableVersions_apply]
    simp only [has_apply_iff hview hwrites]
    split
    case isTrue he =>
      obtain ⟨k, hk, he⟩ := he
      exact iff_of_false nofun fun hnone => hnone k (.inl hk) he
    case isFalse he =>
      rw [h.none_iff]
      constructor
      · rintro hnone k (hk | hk) hke
        · exact he ⟨k, hk, hke⟩
        · exact hnone k hk hke
      · exact fun hnone k hk => hnone k (.inr hk)
  table_iff e n := by
    rw [tableVersions_apply]
    split
    case isTrue he =>
      obtain ⟨k, hk, he⟩ := he
      have hgreatest : IsGreatest {m | ∃ k : Key, k.entity = e ∧
          (c.apply tx).recordVersions[k]? = some m} (c.version + 1) := by
        refine ⟨⟨k, he, by rw [recordVersions_apply, if_pos hk]⟩, ?_⟩
        rintro m ⟨l, -, hm⟩
        rw [← version_apply_of_mem hk]
        exact (h.toDated.apply tx).record l m hm
      rw [Option.some.injEq]
      exact ⟨fun hn => hn ▸ hgreatest, hgreatest.unique⟩
    case isFalse he =>
      have hsame : ∀ k : Key, k.entity = e →
          (c.apply tx).recordVersions[k]? = c.recordVersions[k]? := by
        intro k hke
        rw [recordVersions_apply, if_neg fun hk => he ⟨k, hk, hke⟩]
      rw [h.table_iff]
      refine iff_of_eq (congrArg (IsGreatest · n) (Set.ext fun m => ?_))
      exact exists_congr fun k => and_congr_right fun hke => by rw [hsame k hke]

/-- What is committed by the transactions of `log` has the accounts of `log`. -/
theorem accounts_ofLog {log : List Transaction}
    (hlog : ∀ tx ∈ log, tx.view.Keyed ∧ ∀ k ∈ tx.writes, tx.view.has k) :
    (ofLog log).Accounts log := by
  induction log using List.reverseRecOn with
  | nil => exact accounts_empty
  | append_singleton log tx ih =>
    obtain ⟨hview, hwrites⟩ := hlog tx (by simp)
    rw [ofLog_concat]
    exact (ih fun u hu => hlog u (List.mem_append_left _ hu)).apply hview hwrites

theorem version_le_applyAll (c : Committed) (log : List Transaction) :
    c.version ≤ (c.applyAll log).version := by
  apply applyAll_induction (Q := fun d => c.version ≤ d.version)
  · intro tx _ d hd
    exact Nat.le_trans hd (version_le_apply tx d)
  · exact Nat.le_refl _

end Committed

namespace World

variable {α : Type} {w : World α}

/-- In a sound world the accounts are those of the transactions in its log. -/
theorem Sound.accounts (h : w.Sound) : w.store.committed.Accounts (w.log.map (·.tx)) := by
  rw [h.committed_eq]
  refine Committed.accounts_ofLog fun tx htx => ⟨h.keyed_log tx htx, ?_⟩
  obtain ⟨s, hs, rfl⟩ := List.mem_map.1 htx
  exact fun k hk => (h.log s hs).has_of_writes hk

section Open

variable (h : w.Sound) {name : Nat} {s : Session α} (hs : w.sessions name = some s)
include h hs

theorem Sound.beginVersion_le : s.tx.beginVersion ≤ w.store.committed.version := by
  rw [(h.sessions name s hs).beginVersion_eq, h.committed_eq,
    Committed.ofLog_split s.began (w.log.map (·.tx))]
  exact Committed.version_le_applyAll _ _

/-- A record whose number `n` is not above the version at which the session `s` began is the one
that `s` found: nobody has written it since. -/
theorem Sound.find?_of_version_le {k : Key} {n : Nat}
    (hk : w.store.committed.recordVersions[k]? = some n) (hn : n ≤ s.tx.beginVersion) :
    w.store.committed.tables.find? k = s.start.view.find? k := by
  have hsound := h.sessions name s hs
  rw [h.committed_eq] at hk ⊢
  refine hsound.find?_committed h.keyed_log fun tx htx hwrote => ?_
  have hnewer := hsound.recordNewer_iff.2 ⟨tx, htx, hwrote⟩
  rw [Committed.recordNewer, hk, Option.any_some, decide_eq_true_eq] at hnewer
  omega

end Open

/-- Whatever has happened, the version is the number of commits that wrote something, so that it
fits a machine word as long as the commits can be counted in one. Exactly the committed records have
a number, that of the last of these commits that wrote the record, and it is not above the version;
a table has the greatest number of its records, and none if it is empty. An open transaction began
at a version that is not above the present one. Every committed record whose number is not above
that is as in the snapshot with which the transaction began, and every record of this snapshot is
still committed. -/
theorem Reachable.versions (h : w.Reachable) :
    w.store.committed.Accounts (w.log.map (·.tx)) ∧
    w.store.committed.version ≤ w.log.length ∧
    ∀ name s, w.sessions name = some s →
      s.tx.beginVersion ≤ w.store.committed.version ∧
      (∀ k n, w.store.committed.recordVersions[k]? = some n → n ≤ s.tx.beginVersion →
        w.store.committed.tables.find? k = s.start.view.find? k) ∧
      ∀ k, s.start.view.has k → w.store.committed.tables.has k := by
  refine ⟨h.sound.accounts, ?_, fun name s hs => ⟨h.sound.beginVersion_le hs,
    fun k n => h.sound.find?_of_version_le hs, fun k => h.sound.has_committed hs⟩⟩
  have hcounted := Committed.length_counted_le (w.log.map (·.tx))
  rw [List.length_map] at hcounted
  exact h.sound.accounts.version_eq.trans_le hcounted

/-- Of two nodes that are committed together, one is written again, together with a vector. A
transaction that began in between is still open, and one that wrote nothing was committed. -/
def ledger : List Event :=
  [.begin 0 .readWrite .readCommitted, .ask 0 (.insert (.node (.numbered 0))),
    .ask 0 (.insert (.node (.numbered 1))), .commit 0,
    .begin 1 .readWrite .serializable, .begin 0 .readOnly .readCommitted, .commit 0,
    .begin 0 .readWrite .readCommitted,
    .ask 0 (.revise (.node { Node.numbered 0 with participant := some "p-1" })),
    .ask 0 (.insert (.vector (.numbered 2 0 1))), .commit 0]

/-- Two of the three commits are numbered. The node that was not written again still has the first
number, and is as the open transaction found it. -/
theorem versions_ledger : ∃ s, (run .still ledger).sessions 1 = some s ∧
    let c := (run .still ledger).store.committed
    let log := (run .still ledger).log.map (·.tx)
    log.length = 3 ∧ c.version = 2 ∧ Committed.LastWrote log (.node ⟨0⟩) 2 ∧
      IsGreatest {m | ∃ k : Key, k.entity = .node ∧ c.recordVersions[k]? = some m} 2 ∧
      c.recordVersions[Key.node ⟨1⟩]? = some 1 ∧ 1 ≤ s.tx.beginVersion ∧
      c.tables.find? (.node ⟨1⟩) = s.start.view.find? (.node ⟨1⟩) := by
  have hs : (run .still ledger).sessions 1 = some _ := rfl
  obtain ⟨haccounts, -, hopen⟩ := Reachable.versions (reachable_run .still ledger)
  obtain ⟨-, hfind, -⟩ := hopen 1 _ hs
  exact ⟨_, hs, rfl, rfl, (haccounts.record_iff _ _).1 (by decide +kernel),
    (haccounts.table_iff _ _).1 (by decide +kernel), by decide +kernel, by decide +kernel,
    hfind (.node ⟨1⟩) 1 (by decide +kernel) (by decide +kernel)⟩

end World

end Propagation
