import Propagation.Proofs.History
import Propagation.Proofs.Order

/-!
# The last committer prevails

A transaction that is content with what is committed always ends well. What it wrote takes the place
of what is committed by then, whoever committed it. So the end of a node or of a vector, or the
contents of an info, can be lost after all: the transaction judged its own writes by the snapshot
with which it began, and knows nothing of what others have brought to an end since.

This is the only way. Whatever is final stays so unless the transaction wrote the same record, and
another one that was committed since it began did so too.

## Main definitions

* `World.Overwrites`: a session wrote a record that somebody else has written since it began.

## Main statements

* `World.Sound.find?_of_unwritten`: what nobody wrote is committed as a session found it.
* `World.Sound.le_or_overwrites`: what a session wrote keeps what it has to, or overwrites.
* `World.Reachable.finality_readCommitted`: what the commit of such a transaction keeps.
* `World.end_overtaken`: the end of a node is lost.
-/

namespace Propagation

namespace World

variable {α : Type} {w : World α}

/-- The session `s` wrote the record under the key `k`, and so did another one that was committed
since `s` began. -/
def Overwrites (w : World α) (s : Session α) (k : Key) : Prop :=
  k ∈ s.tx.writes ∧ ∃ u ∈ w.log.drop s.began, k ∈ u.tx.writes

namespace Sound

variable (h : w.Sound) {name : Nat} {s : Session α} (hs : w.sessions name = some s)
include h hs

/-- What nobody has written since `s` began is committed as `s` found it. -/
theorem find?_of_unwritten {k : Key} (hk : ∀ u ∈ w.log.drop s.began, k ∉ u.tx.writes) :
    w.store.committed.tables.find? k = s.start.view.find? k := by
  rw [h.committed_eq]
  refine (h.sessions name s hs).find?_committed h.keyed_log fun tx htx => ?_
  rw [← List.map_drop] at htx
  obtain ⟨u, hu, rfl⟩ := List.mem_map.1 htx
  exact hk u hu

/-- What `s` wrote keeps what the committed record has to keep, or it overwrites a record that `s`
has never seen. -/
theorem le_or_overwrites {k : Key} (hk : k ∈ s.tx.writes) {old new : Record}
    (hold : w.store.committed.tables.find? k = some old) (hnew : s.tx.view.find? k = some new) :
    old.Le new ∨ w.Overwrites s k ∧ s.start.view.find? k ≠ some old := by
  by_cases hstart : s.start.view.find? k = some old
  · obtain ⟨new', hnew', hle⟩ := (h.sessions name s hs).becomes.le_view k old hstart
    rw [hnew] at hnew'
    cases hnew'
    exact .inl hle
  · refine .inr ⟨⟨hk, ?_⟩, hstart⟩
    by_contra hno
    have hunwritten : ∀ u ∈ w.log.drop s.began, k ∉ u.tx.writes :=
      fun u hu hku => hno ⟨u, hu, hku⟩
    exact hstart ((h.find?_of_unwritten hs hunwritten).symm.trans hold)

end Sound

/-- A transaction that is content with what is committed is always committed. Every record that was
committed before keeps what it has to keep: a node and a vector their end, an info its contents. The
exception is a record that the transaction wrote and that another one, committed since it began, has
written too, so that it is not the one the transaction found: this becomes what the transaction made
of it. -/
theorem Reachable.finality_readCommitted (h : w.Reachable) {name : Nat} {s : Session α}
    (hs : w.sessions name = some s) (hrc : s.tx.isolation = .readCommitted) :
    (w.store.commit s.tx).1 = .ok () ∧
    ∀ k old, w.store.committed.tables.find? k = some old →
      ∃ new, (w.store.commit s.tx).2.committed.tables.find? k = some new ∧
        (¬ old.Le new → w.Overwrites s k ∧ s.start.view.find? k ≠ some old ∧
          s.tx.view.find? k = some new) := by
  have hsound := h.sound.sessions name s hs
  rw [Store.commit_of_not_conflicts (Store.conflicts_readCommitted hrc w.store)]
  refine ⟨rfl, fun k old hold => ?_⟩
  have hafter := Committed.find?_apply hsound.keyed_view w.store.committed k
  by_cases hk : k ∈ s.tx.writes
  · obtain ⟨new, hnew⟩ := Option.isSome_iff_exists.1 (hsound.has_of_writes hk)
    rw [if_pos hk, hnew, Option.some_or] at hafter
    refine ⟨new, hafter, fun hlost => ?_⟩
    obtain ⟨hover, hstart⟩ := (h.sound.le_or_overwrites hs hk hold hnew).resolve_left hlost
    exact ⟨hover, hstart, hnew⟩
  · rw [if_neg hk, hold] at hafter
    exact ⟨old, hafter, fun hlost => absurd (.refl old) hlost⟩

/-! ## An end that is lost -/

/-- Of two nodes, one transaction lets both die and is committed; another one, which began before
that, lets the first of them fail. -/
def overtaking : List Event :=
  [.begin 0 .readWrite .readCommitted, .ask 0 (.insert (.node (.numbered 0))),
    .ask 0 (.insert (.node (.numbered 1))), .commit 0,
    .begin 0 .readWrite .readCommitted, .begin 1 .readWrite .readCommitted,
    .ask 0 (.revise (.node (ended 0 .dead))), .ask 0 (.revise (.node (ended 1 .dead))), .commit 0,
    .ask 1 (.revise (.node (ended 0 .failed)))]
where
  ended (n : Nat) (status : NodeStatus) : Node :=
    { Node.numbered n with status, timeOfDeath := some (.ofMoment .first) }

/-- The other node, which the second transaction left alone, is still dead once it is committed. -/
theorem finality_readCommitted_overtaking : ∃ s, (run .still overtaking).sessions 1 = some s ∧
    s.tx.isolation = .readCommitted ∧
    ((run .still overtaking).store.commit s.tx).1 = .ok () ∧
    ∃ new, ((run .still overtaking).store.commit s.tx).2.committed.tables.find? (.node ⟨1⟩) =
      some new ∧ (Record.node (overtaking.ended 1 .dead)).Le new := by
  have hs : (run .still overtaking).sessions 1 = some _ := rfl
  obtain ⟨hok, hkeeps⟩ := Reachable.finality_readCommitted (reachable_run .still overtaking) hs rfl
  obtain ⟨new, hnew, hlost⟩ := hkeeps (.node ⟨1⟩) (.node (overtaking.ended 1 .dead)) rfl
  refine ⟨_, hs, rfl, hok, new, hnew, ?_⟩
  by_contra hle
  have hwritten := (hlost hle).1.1
  revert hwritten
  decide

/-- A dead node has failed instead, once a transaction is committed that began while it lived. -/
theorem end_overtaken : ∃ s old new, (run .still overtaking).sessions 1 = some s ∧
    s.tx.isolation = .readCommitted ∧ s.tx.mode = .readWrite ∧
    (run .still overtaking).store.committed.tables.nodes[(⟨0⟩ : NodeId)]? = some old ∧
    ((run .still overtaking).store.commit s.tx).1 = .ok () ∧
    ((run .still overtaking).store.commit s.tx).2.committed.tables.nodes[(⟨0⟩ : NodeId)]? =
      some new ∧
    old.status = .dead ∧ new.status = .failed :=
  ⟨_, _, _, rfl, rfl, rfl, rfl, rfl, rfl, rfl, rfl⟩

end World

end Propagation
