import Propagation.Proofs.Frame
import Propagation.Proofs.History
import Propagation.Proofs.Index

/-!
# Serializability

A serializable transaction that is committed might as well have run at the moment of its commit.
If all its requests were admitted and it is asked them all again, on top of what is committed
just before its commit, it gives the same answers, and ends with the tables that the commit
leaves.

The records are the same because the transaction rests on nothing that has changed. The indexes
are lists, and the order in which a commit enters vectors is not that in which the transaction
stored them; but how often a vector is in a list can be told from the tables of vectors alone.

## Main definitions

* `Tables.Same`: the same records, and the same indexes but for the order of their lists.

## Main statements

* `Tables.IndexedOver.same`: what is indexed alike is the same if the same is found in it.
* `Transaction.Becomes.indexed`, `World.Sound.indexed_apply`: requests and commits index what they
  store.
* `World.serializable_replay`: serializability.
-/

namespace Propagation

namespace Tables

/-- The tables `t` and `u` have the same records, and the same vectors in each list of the indexes,
equally often. -/
structure Same (t u : Tables) : Prop where
  networks : t.networks = u.networks
  nodes : t.nodes = u.nodes
  vectors : t.vectors = u.vectors
  infos : t.infos = u.infos
  transmissions : t.transmissions = u.transmissions
  transformations : t.transformations = u.transformations
  outgoing : ∀ n, (t.outgoing.getD n []).Perm (u.outgoing.getD n [])
  incoming : ∀ n, (t.incoming.getD n []).Perm (u.incoming.getD n [])

/-- The tables `t` and `u`, in which the same is found, are the same if both came of the same ones
and index what they store. -/
theorem IndexedOver.same {base base' t u : Tables} (h : base.IndexedOver t)
    (h' : base'.IndexedOver u) (hbase : base.Same base') (hfind : ∀ k, t.find? k = u.find? k) :
    t.Same u := by
  have hvectors := vectors_eq fun i => hfind (.vector i)
  refine ⟨networks_eq fun i => hfind (.network i), nodes_eq fun i => hfind (.node i), hvectors,
    infos_eq fun i => hfind (.info i), transmissions_eq fun i => hfind (.transmission i),
    transformations_eq fun i => hfind (.transformation i), fun n => ?_, fun n => ?_⟩
  · refine List.perm_iff_count.2 fun i => ?_
    rw [h.outgoing n i, h'.outgoing n i, hvectors, hbase.vectors, (hbase.outgoing n).count_eq]
  · refine List.perm_iff_count.2 fun i => ?_
    rw [h.incoming n i, h'.incoming n i, hvectors, hbase.vectors, (hbase.incoming n).count_eq]

theorem Same.refl (t : Tables) : t.Same t :=
  ⟨rfl, rfl, rfl, rfl, rfl, rfl, fun _ => .refl _, fun _ => .refl _⟩

end Tables

/-! ## Replaying a session -/

/-- Requests index what they store. -/
theorem Transaction.Becomes.indexed {P : Request → Prop} {tx tx' : Transaction}
    (h : tx.Becomes P tx') : tx.view.IndexedOver tx'.view := by
  apply h.view_induction (Q := fun t => tx.view.IndexedOver t)
  · intro r t s _ hw ht
    exact ht.put (Request.allows_of_writes hw)
  · exact .refl _

namespace World

/-- The session `s` once more, on top of what is committed now. -/
def replay (w : World Trace) (s : Session Trace) : Session Trace :=
  let start := (w.store.begin s.tx.mode s.tx.isolation).1
  let requests := s.note.map Prod.fst
  { start, tx := Request.afterAll requests start, note := Request.trace requests start,
    began := w.log.length }

theorem becomes_replay (w : World Trace) (s : Session Trace) :
    (w.replay s).start.Becomes AnyRequest (w.replay s).tx := .afterAll _ _

section Unhindered

variable {w : World Trace} (h : w.Sound) {name : Nat} {s : Session Trace}
  (hs : w.sessions name = some s) (hser : s.tx.isolation = .serializable)
  (hc : w.store.conflicts s.tx = false)
include h hs hser hc

/-- Without a conflict, the commit of a serializable session `s` indexes what it copies. -/
theorem Sound.indexed_apply :
    w.store.committed.tables.IndexedOver (w.store.committed.apply s.tx).tables := by
  apply Committed.apply_of_allowsAll (Q := fun t => w.store.committed.tables.IndexedOver t)
  · intro t r hr ht
    exact ht.put hr
  · exact (h.sessions name s hs).keyed_view
  · exact h.allowsAll hs hser hc
  · exact .refl _

/-- Without a conflict, what is committed agrees with the snapshot of a serializable session `s` on
what `s` rests on. -/
theorem Sound.agree : s.start.view.Agree s.tx w.store.committed.tables where
  find? _ hk := h.find?_committed hs hser hc hk
  index hv := h.index_committed hs hser hc hv
  has _ hk := h.has_committed hs hk

variable (ht : w.Traced) (hok : ∀ e ∈ s.note, e.2.isOk)
include ht hok

/-- Without a conflict, a serializable session `s` whose requests were all admitted is answered
alike once more, and its view agrees with the first one. -/
theorem Sound.replay :
    (w.replay s).note = s.note ∧ s.tx.view.Agree s.tx (w.replay s).tx.view := by
  have htraced := ht.sessions name s hs
  have hmode : s.tx.mode = s.start.mode := (h.sessions name s hs).becomes.mode_eq
  have hagree : s.start.view.Agree s.tx (w.replay s).start.view := h.agree hs hser hc
  have hend : (Request.afterAll (s.note.map Prod.fst) s.start).Becomes AnyRequest s.tx := by
    rw [← htraced.tx_eq]
    exact .refl _
  rw [htraced.note_eq] at hok
  obtain ⟨htrace, hview⟩ := Request.trace_of_agree _ hagree hmode hok hend
  exact ⟨htrace.trans htraced.note_eq.symm, by rw [← htraced.tx_eq] at hview; exact hview⟩

/-- The same records are found after the replay and after the commit: what `s` wrote comes of the
agreement of the views, all else was left alone by both. -/
theorem Sound.find?_replay (k : Key) :
    (w.replay s).tx.view.find? k = (w.store.committed.apply s.tx).tables.find? k := by
  have hsound := h.sessions name s hs
  obtain ⟨hnote, hview⟩ := h.replay hs hser hc ht hok
  have hwrites : k ∈ (w.replay s).tx.writes ↔ k ∈ s.tx.writes := by
    rw [(ht.sessions name s hs).mem_writes hsound, ← hnote]
    refine (Request.mem_writes_afterAll _ _).trans ?_
    exact or_iff_right List.not_mem_nil
  rw [Committed.find?_apply hsound.keyed_view]
  by_cases hk : k ∈ s.tx.writes
  · rw [if_pos hk, hview.find? k (.inr (.inl hk))]
    obtain ⟨r, hr⟩ := Option.isSome_iff_exists.1 (hsound.has_of_writes hk)
    rw [hr, Option.some_or]
  · rw [if_neg hk]
    exact (becomes_replay w s).find?_view (mt hwrites.1 hk)

/-- The tables after the replay are those after the commit. -/
theorem Sound.same_replay :
    (w.replay s).tx.view.Same (w.store.committed.apply s.tx).tables := by
  have hreplay : w.store.committed.tables.IndexedOver (w.replay s).tx.view :=
    (becomes_replay w s).indexed
  exact hreplay.same (h.indexed_apply hs hser hc) (.refl _) (h.find?_replay hs hser hc ht hok)

end Unhindered

/-- Serializability, in the order of the commits: if a serializable transaction all of whose
requests were admitted is committed, then to ask the same again, on top of what was committed just
before, gives the same answers and leads to the tables that are committed just after. -/
theorem serializable_replay (mint : Mint) (events : List Event) {name : Nat} {s : Session Trace}
    (hs : (run mint events).sessions name = some s) (hser : s.tx.isolation = .serializable)
    (hok : ∀ e ∈ s.note, e.2.isOk) (hcommit : ((run mint events).store.commit s.tx).1 = .ok ()) :
    let again := ((run mint events).store.begin s.tx.mode s.tx.isolation).1
    let requests := s.note.map Prod.fst
    again.view = (run mint events).store.committed.tables ∧
    Request.trace requests again = s.note ∧
    (Request.afterAll requests again).view.Same
      ((run mint events).store.commit s.tx).2.committed.tables := by
  have hw := sound_run mint events
  have ht := traced_run mint events
  cases hc : (run mint events).store.conflicts s.tx with
  | true =>
    rw [Store.commit_of_conflicts hc] at hcommit
    cases hcommit
  | false =>
    rw [Store.commit_of_not_conflicts hc]
    exact ⟨rfl, (hw.replay hs hser hc ht hok).1, hw.same_replay hs hser hc ht hok⟩

/-- While a serializable transaction looks for a node and then stores it, a network is committed. -/
def bystander : List Event :=
  [.begin 0 .readWrite .serializable, .begin 1 .readWrite .readCommitted,
    .ask 0 (.find (.node ⟨0⟩)), .ask 1 (.insert (.network ⟨⟨0⟩, .base, .ofMoment .first⟩)),
    .commit 1,
    .ask 0 (.insert (.node { id := ⟨0⟩, kind := .agent, creationTime := .ofMoment .first }))]

/-- The transaction that stores the node does not notice the network. -/
theorem serializable_replay_bystander : ∃ s, (run .still bystander).sessions 0 = some s ∧
    s.note.length = 2 ∧ (run .still bystander).store.committed.tables.has (.network ⟨0⟩) ∧
    Request.trace (s.note.map Prod.fst) ((run .still bystander).store.begin .readWrite
      .serializable).1 = s.note := by
  have hs : (run .still bystander).sessions 0 = some _ := rfl
  refine ⟨_, hs, rfl, rfl, ?_⟩
  exact (serializable_replay .still bystander hs rfl (by decide) rfl).2.1

end World

end Propagation
