import Propagation.Proofs.Descent
import Propagation.Proofs.References

/-!
# Chronicles

A chronicle tells of a store with its open transactions, and keeps beside it a list of the records
that were ever made: stored as new ones by some operation, whether or not the transaction was
committed, given up or is still open.

Each step of a chronicle is one of the things that can happen to a store, and what happens in a
transaction is any operation. All that is asked of it is that no key is made twice. Then everything
that can be looked at is of one piece: two records under one key come from the same one wherever
they stand, the indexes are in step with the vectors, and a record that is nowhere found without
another never will be.

## Main definitions

* `Transaction.Makes`: the records that were made on the way from one transaction to another.
* `Chronicle`: a world and what was made in it.
* `Chronicle.Step`, `Chronicle.Leads`, `Chronicle.Run`: one step, several, and from the start.
* `World.Offers`: the tables that can be looked at.
* `Chronicle.Carries`: a key that is nowhere found without another.

## Main statements

* `Transaction.Makes.nodup`, `Transaction.Makes.free`: in one transaction no key is made twice.
* `World.offers_use`, `World.offers_commit` and siblings: what each step adds to what can be looked
  at.
* `Chronicle.Step.emerges`: where the tables come from that can be looked at after a step.
* `Chronicle.Run.sound`: what can be looked at comes from what was made, with its indexes in step.
* `Chronicle.Leads.carries`: a key that is nowhere found without another never will be.
-/

namespace Propagation

/-! ## What is made in a transaction -/

/-- A request makes nothing and leaves the keys as they are, or it stores one record under a key
that was free. -/
theorem Request.inserted_cases (r : Request) (tx : Transaction) :
    (Trace.inserted [(r, r.answer tx)] = [] ∧ ∀ k, (r.after tx).view.has k = tx.view.has k) ∨
      ∃ s, Trace.inserted [(r, r.answer tx)] = [s] ∧ tx.view.has s.key = false ∧
        (r.after tx).view = tx.view.put s := by
  rw [answer_eq, view_after]
  cases hc : r.check tx with
  | error e =>
    rw [writes_of_error hc]
    exact .inl ⟨by cases r <;> rfl, fun _ => rfl⟩
  | ok u =>
    rw [writes_of_ok hc]
    cases r with
    | insert s =>
      obtain ⟨hacc, -⟩ := (check_ok_iff rfl tx).1 hc
      exact .inr ⟨s, rfl, by rw [Tables.has, Record.find?_of_accept hacc]; rfl, rfl⟩
    | revise s =>
      obtain ⟨hacc, -⟩ := (check_ok_iff rfl tx).1 hc
      obtain ⟨old, hold⟩ := Revision.find?_of_accept hacc
      refine .inl ⟨rfl, fun k => ?_⟩
      by_cases hk : s.record.key = k
      · subst hk
        simp [stored?, Tables.has, hold, Tables.find?_put]
      · simp [stored?, Tables.has, Tables.find?_put, hk]
    | _ => exact .inl ⟨rfl, fun _ => rfl⟩

/-- The records in the list were made on the way from the first transaction to the second. -/
inductive Transaction.Makes : List Record → Transaction → Transaction → Prop
  | refl (tx : Transaction) : Makes [] tx tx
  | ask {made : List Record} {tx tx' : Transaction} (h : Makes made tx tx') (r : Request) :
    Makes (made ++ Trace.inserted [(r, r.answer tx')]) tx (r.after tx')

namespace Transaction

variable {made : List Record} {tx tx' : Transaction}

theorem Becomes.makes (h : tx.Becomes AnyRequest tx') : ∃ made, tx.Makes made tx' := by
  induction h with
  | refl => exact ⟨[], .refl tx⟩
  | tail _ hr ih =>
    obtain ⟨r, -, rfl⟩ := hr
    obtain ⟨made, hmade⟩ := ih
    exact ⟨_, hmade.ask r⟩

namespace Makes

theorem becomes (h : tx.Makes made tx') : tx.Becomes AnyRequest tx' := by
  induction h with
  | refl tx => exact .refl tx
  | ask _ r ih => exact ih.trans (.after trivial _)

/-- The records that `tx'` shows come from those of before and from what was `made`. -/
theorem descends {first : List Record} (h : tx.Makes made tx') (htx : tx.view.Descends first) :
    tx'.view.Descends (first ++ made) := by
  induction h with
  | refl tx => simpa using htx
  | ask _ r ih =>
    rw [← List.append_assoc]
    exact Request.descends_after (ih htx) r

/-- In `tx'` the keys are taken that were taken in `tx`, and those of what was `made`. -/
theorem has_iff (h : tx.Makes made tx') (k : Key) :
    tx'.view.has k ↔ tx.view.has k ∨ k ∈ made.map Record.key := by
  induction h with
  | refl tx => simp
  | @ask made tx tx' h r ih =>
    rcases r.inserted_cases tx' with ⟨hnone, hkeys⟩ | ⟨s, hone, -, hview⟩
    · rw [hnone, hkeys, List.append_nil]
      exact ih
    · rw [hone, hview, Tables.has_put, Bool.or_eq_true, ih, List.map_append, List.mem_append,
        List.map_singleton, List.mem_singleton, decide_eq_true_eq, eq_comm, or_comm, or_assoc]

/-- What was `made` stands under keys that were free in `tx`. -/
theorem free (h : tx.Makes made tx') : ∀ r ∈ made, tx.view.has r.key = false := by
  induction h with
  | refl tx => simp
  | @ask made tx tx' h r ih =>
    rcases r.inserted_cases tx' with ⟨hnone, -⟩ | ⟨s, hone, hfree, -⟩
    · rw [hnone, List.append_nil]
      exact ih
    · rw [hone]
      intro r' hr'
      rcases List.mem_append.1 hr' with hr' | hr'
      · exact ih r' hr'
      · rw [List.mem_singleton.1 hr', ← Bool.not_eq_true]
        intro hs
        rw [(h.has_iff s.key).2 (.inl hs)] at hfree
        cases hfree

/-- In one transaction no key is `made` twice. -/
theorem nodup (h : tx.Makes made tx') : (made.map Record.key).Nodup := by
  induction h with
  | refl tx => exact .nil
  | @ask made tx tx' h r ih =>
    rcases r.inserted_cases tx' with ⟨hnone, -⟩ | ⟨s, hone, hfree, -⟩
    · rw [hnone, List.append_nil]
      exact ih
    · rw [hone, List.map_append, List.map_singleton]
      refine List.nodup_append.2 ⟨ih, List.nodup_singleton _, fun k hk l hl => ?_⟩
      rintro rfl
      rw [← List.mem_singleton.1 hl, (h.has_iff k).2 (.inr hk)] at hfree
      cases hfree

end Makes

end Transaction

/-! ## What can be looked at -/

/-- The tables that can be looked at in `w`: those that are committed, and the view of every open
transaction. -/
inductive World.Offers {α : Type} (w : World α) : Tables → Prop
  | committed : w.Offers w.store.committed.tables
  | view {name : Nat} {s : Session α} (hs : w.sessions name = some s) : w.Offers s.tx.view

namespace World

variable {α β : Type} {w : World α} {name : Nat} {t : Tables}

/-! ### Where tables come from that can be looked at after a step -/

theorem offers_begin {mode : TxMode} {isolation : Isolation} {note : α}
    (ht : (w.begin name mode isolation note).Offers t) : w.Offers t := by
  cases ht with
  | committed => exact .committed
  | view hs =>
    rcases sessions_begin hs with rfl | hs
    · exact .committed
    · exact .view hs

theorem offers_use {s : Session α} (hs : w.sessions name = some s) {op : Op β}
    {remark : Except Error β → α → α} (ht : (w.use name op remark).Offers t) :
    w.Offers t ∨ t = (final (op { tx := s.tx, mint := w.store.mint })).tx.view := by
  cases ht with
  | committed =>
    rw [committed_use]
    exact .inl .committed
  | view hs' =>
    rcases sessions_use hs' with ⟨s', hsame, rfl⟩ | hother
    · rw [hs] at hsame
      cases hsame
      exact .inr rfl
    · exact .inl (.view hother)

theorem offers_commit (ht : (w.commit name).Offers t) :
    w.Offers t ∨
      ∃ s, w.sessions name = some s ∧ t = (w.store.committed.apply s.tx).tables := by
  cases ht with
  | committed =>
    rcases commit_cases w name with ⟨-, hsame⟩ | ⟨s, hs, -, -, hnew⟩
    · rw [hsame]
      exact .inl .committed
    · exact .inr ⟨s, hs, by rw [hnew]⟩
  | view hs => exact .inl (.view (sessions_commit hs))

theorem offers_rollback (ht : (w.rollback name).Offers t) : w.Offers t := by
  cases ht with
  | committed => exact .committed
  | view hs => exact .view (sessions_rollback hs)

theorem offers_aside {f : Store → Store} (hf : (f w.store).committed = w.store.committed)
    (ht : (w.aside f).Offers t) : w.Offers t := by
  cases ht with
  | committed =>
    change w.Offers (f w.store).committed.tables
    rw [hf]
    exact .committed
  | view hs => exact .view hs

end World

namespace World.Reachable

variable {α : Type} {w : World α} (h : w.Reachable) {t : Tables} (ht : w.Offers t)
include h ht

theorem keyed_offered : t.Keyed := by
  cases ht with
  | committed => exact h.sound.keyed_committed
  | view hs => exact (h.sound.sessions _ _ hs).keyed_view

theorem closed_offered : t.Closed := by
  cases ht with
  | committed => exact h.closed.committed
  | view hs => exact h.closed_view hs

end World.Reachable

/-! ## Chronicles -/

/-- A world and the records that were made in it. -/
structure Chronicle (α : Type) where
  world : World α
  /-- Whatever was stored as a new record, in whichever transaction. -/
  made : List Record

namespace Chronicle

variable {α β : Type}

/-- A store in which nothing has happened, with `mint`. -/
def start (mint : Mint) : Chronicle α := ⟨.init mint, []⟩

/-- The operation `op` is run in an open transaction, and makes nothing under a key under which
something was made before. -/
structure Uses (name : Nat) (op : Op β) (remark : Except Error β → α → α) (c c' : Chronicle α) :
    Prop where
  asks : Asks AnyRequest op
  world : c'.world = c.world.use name op remark
  made : ∃ s made, c.world.sessions name = some s ∧
    s.tx.Makes made (final (op { tx := s.tx, mint := c.world.store.mint })).tx ∧
    c'.made = c.made ++ made
  fresh : (c'.made.map Record.key).Nodup

/-- What can happen in the chronicle `c`. -/
inductive Step (c : Chronicle α) : Chronicle α → Prop
  | begin (name : Nat) (mode : TxMode) (isolation : Isolation) (note : α) :
    Step c { c with world := c.world.begin name mode isolation note }
  | use {name : Nat} {β : Type} {op : Op β} {remark : Except Error β → α → α} {c' : Chronicle α}
    (h : c.Uses name op remark c') : Step c c'
  | commit (name : Nat) : Step c { c with world := c.world.commit name }
  | rollback (name : Nat) : Step c { c with world := c.world.rollback name }
  | aside {f : Store → Store} (hf : ∀ s, (f s).committed = s.committed) :
    Step c { c with world := c.world.aside f }

/-- Any number of steps of `Step`. -/
def Leads : Chronicle α → Chronicle α → Prop := Relation.ReflTransGen Step

/-- The chronicle `c` can come about, from a `start`. -/
def Run (c : Chronicle α) : Prop := ∃ mint, (start mint).Leads c

variable {c c' : Chronicle α}

theorem Leads.single (h : c.Step c') : c.Leads c' := Relation.ReflTransGen.single h

theorem Leads.trans {c'' : Chronicle α} (h : c.Leads c') (h' : c'.Leads c'') : c.Leads c'' :=
  Relation.ReflTransGen.trans h h'

theorem Run.leads (h : c.Run) (h' : c.Leads c') : c'.Run := by
  obtain ⟨mint, h⟩ := h
  exact ⟨mint, h.trans h'⟩

/-! ### One step -/

/-- Where tables come from that can be looked at after a step from `c` to `c'`: they could be
before, or an operation or a commit has made them what they are. -/
inductive Emerges (c c' : Chronicle α) : Tables → Prop
  | kept {t : Tables} (ht : c.world.Offers t) : Emerges c c' t
  | used {name : Nat} {s : Session α} {made : List Record} {tx : Transaction}
    (hs : c.world.sessions name = some s) (hmade : s.tx.Makes made tx)
    (heq : c'.made = c.made ++ made) : Emerges c c' tx.view
  | committed {name : Nat} {s : Session α} (hs : c.world.sessions name = some s) :
    Emerges c c' (c.world.store.committed.apply s.tx).tables

section Uses

variable {name : Nat} {op : Op β} {remark : Except Error β → α → α} (h : c.Uses name op remark c')
  {s : Session α} (hs : c.world.sessions name = some s)
include h hs

/-- What was made by `c'` is what was made by `c` and what the operation has made. -/
theorem Uses.made_eq : ∃ made,
    s.tx.Makes made (final (op { tx := s.tx, mint := c.world.store.mint })).tx ∧
      c'.made = c.made ++ made := by
  obtain ⟨s', made, hs', hmade, heq⟩ := h.made
  rw [hs] at hs'
  cases hs'
  exact ⟨made, hmade, heq⟩

/-- The tables that the operation leaves can be looked at in `c'`. -/
theorem Uses.offers :
    c'.world.Offers (final (op { tx := s.tx, mint := c.world.store.mint })).tx.view := by
  have hused : c'.world.sessions name = some (c.world.used op remark s) := by
    rw [h.world, World.sessions_use_eq hs, Function.update_self]
  exact .view hused

/-- All other tables that can be looked at in `c'` could be in `c`. -/
theorem Uses.offers_cases {t : Tables} (ht : c'.world.Offers t) : c.world.Offers t ∨
    t = (final (op { tx := s.tx, mint := c.world.store.mint })).tx.view := by
  rw [h.world] at ht
  exact World.offers_use hs ht

end Uses

theorem Step.emerges (h : c.Step c') {t : Tables} (ht : c'.world.Offers t) : c.Emerges c' t := by
  cases h with
  | begin name mode isolation note => exact .kept (World.offers_begin ht)
  | use h =>
    obtain ⟨s, -, hs, -⟩ := h.made
    obtain ⟨made, hmade, heq⟩ := h.made_eq hs
    rcases h.offers_cases hs ht with ht | rfl
    · exact .kept ht
    · exact .used hs hmade heq
  | commit name =>
    rcases World.offers_commit ht with ht | ⟨s, hs, rfl⟩
    · exact .kept ht
    · exact .committed hs
  | rollback name => exact .kept (World.offers_rollback ht)
  | aside hf => exact .kept (World.offers_aside (hf _) ht)

theorem Step.reachable (h : c.Step c') (hc : c.world.Reachable) : c'.world.Reachable := by
  cases h with
  | begin name mode isolation note => exact hc.begin name mode isolation note
  | use h => rw [h.world]; exact hc.use _ h.asks _
  | commit name => exact hc.commit name
  | rollback name => exact hc.rollback name
  | aside hf => exact hc.aside hf

/-- What was `made` stays, and if more is made, it is under keys of its own. -/
theorem Step.made (h : c.Step c') (hc : (c.made.map Record.key).Nodup) :
    c.made ⊆ c'.made ∧ (c'.made.map Record.key).Nodup := by
  cases h with
  | use h =>
    obtain ⟨s, made, -, -, heq⟩ := h.made
    exact ⟨heq ▸ List.subset_append_left _ _, h.fresh⟩
  | _ => exact ⟨List.Subset.refl _, hc⟩

/-! ### What holds in a run -/

/-- What can be looked at in `c` comes from what was made, with no key made twice, and has its
indexes in step. -/
structure Sound (c : Chronicle α) : Prop where
  reachable : c.world.Reachable
  fresh : (c.made.map Record.key).Nodup
  descends : ∀ t, c.world.Offers t → t.Descends c.made
  linked : ∀ t, c.world.Offers t → t.Linked

theorem sound_start (mint : Mint) : (start mint : Chronicle α).Sound where
  reachable := .init mint
  fresh := .nil
  descends t ht := by
    cases ht with
    | committed => intro k r hr; cases k <;> simp [Tables.find?, start, World.init] at hr
    | view hs => cases hs
  linked t ht := by
    cases ht with
    | committed => exact Tables.linked_empty
    | view hs => cases hs

theorem Sound.step (hc : c.Sound) (h : c.Step c') : c'.Sound := by
  obtain ⟨hsub, hfresh⟩ := h.made hc.fresh
  refine ⟨h.reachable hc.reachable, hfresh, fun t ht => ?_, fun t ht => ?_⟩
  · cases h.emerges ht with
    | kept ht => exact (hc.descends t ht).mono hsub
    | used hs hmade heq =>
      rw [heq]
      exact hmade.descends (hc.descends _ (.view hs))
    | committed hs =>
      refine .mono (Committed.descends_apply ?_ ?_ ?_) hsub
      · exact hc.reachable.keyed_offered (.view hs)
      · exact hc.descends _ (.view hs)
      · exact hc.descends _ .committed
  · cases h.emerges ht with
    | kept ht => exact hc.linked t ht
    | used hs hmade heq => exact hmade.becomes.linked (hc.linked _ (.view hs))
    | committed hs =>
      refine Committed.linked_apply ?_ ?_ ?_ (Record.vectorsApart_of_nodup hc.fresh) ?_
      · exact hc.reachable.keyed_offered (.view hs)
      · exact hc.descends _ (.view hs)
      · exact hc.descends _ .committed
      · exact hc.linked _ .committed

theorem Sound.leads (hc : c.Sound) (h : c.Leads c') : c'.Sound := by
  induction h with
  | refl => exact hc
  | tail _ hstep ih => exact ih.step hstep

/-- What was `made` in `c` is among what was made in `c'`. -/
theorem Sound.made_subset (hc : c.Sound) (h : c.Leads c') : c.made ⊆ c'.made := by
  induction h with
  | refl => exact List.Subset.refl _
  | tail hleads hstep ih => exact List.Subset.trans ih (hstep.made (hc.leads hleads).fresh).1

theorem Run.sound (h : c.Run) : c.Sound := by
  obtain ⟨mint, h⟩ := h
  exact (sound_start mint).leads h

/-- Two records that stand under one key `k` come from the same one, also where one was looked at
earlier than the other. -/
theorem Sound.akin (hc : c.Sound) (h : c.Leads c') {t t' : Tables} (ht : c.world.Offers t)
    (ht' : c'.world.Offers t') {k : Key} {r r' : Record} (hr : t.find? k = some r)
    (hr' : t'.find? k = some r') : r.Akin r' :=
  ((hc.descends t ht).mono (hc.made_subset h)).akin ((hc.leads h).descends t' ht')
    (hc.leads h).fresh hr hr'

/-- In the run `c`, everything that was made is seen in the open transaction `name`. -/
structure Alone (c : Chronicle α) (name : Nat) : Prop where
  run : c.Run
  seen : ∃ s, c.world.sessions name = some s ∧ ∀ r ∈ c.made, s.tx.view.has r.key

theorem Alone.has_key {name : Nat} (h : c.Alone name) {s : Session α}
    (hs : c.world.sessions name = some s) : ∀ r ∈ c.made, s.tx.view.has r.key := by
  obtain ⟨s', hs', hseen⟩ := h.seen
  cases hs.symm.trans hs'
  exact hseen

/-- The first transaction that is begun is alone. -/
theorem alone_begin (mint : Mint) (name : Nat) (mode : TxMode) (isolation : Isolation) (note : α) :
    Alone ⟨(World.init mint).begin name mode isolation note, []⟩ name := by
  refine ⟨⟨mint, .single (.begin name mode isolation note)⟩, _, Function.update_self .., ?_⟩
  exact List.forall_mem_nil _

/-- A transaction that is alone finds keys of its own, whatever `op` is. -/
theorem Alone.use {name : Nat} (h : c.Alone name) {op : Op β} (hop : Asks AnyRequest op)
    (remark : Except Error β → α → α) :
    ∃ made, c.Uses name op remark ⟨c.world.use name op remark, made⟩ ∧
      Alone ⟨c.world.use name op remark, made⟩ name := by
  obtain ⟨s, hs, hseen⟩ := h.seen
  obtain ⟨made, hmade⟩ := (hop { tx := s.tx, mint := c.world.store.mint }).makes
  change s.tx.Makes made (c.world.used op remark s).tx at hmade
  have hfresh : ((c.made ++ made).map Record.key).Nodup := by
    rw [List.map_append]
    refine List.nodup_append.2 ⟨h.run.sound.fresh, hmade.nodup, fun k hk l hl => ?_⟩
    rintro rfl
    obtain ⟨r, hr, rfl⟩ := List.mem_map.1 hk
    obtain ⟨r', hr', hkey⟩ := List.mem_map.1 hl
    have hfree := hmade.free r' hr'
    rw [hkey, hseen r hr] at hfree
    cases hfree
  have huse : c.Uses name op remark ⟨c.world.use name op remark, c.made ++ made⟩ :=
    ⟨hop, rfl, ⟨s, made, hs, hmade, rfl⟩, hfresh⟩
  refine ⟨_, huse, h.run.leads (.single (.use huse)), c.world.used op remark s, ?_, fun r hr => ?_⟩
  · rw [World.sessions_use_eq hs, Function.update_self]
  · rw [hmade.has_iff]
    exact (List.mem_append.1 hr).imp (hseen r) List.mem_map_of_mem

/-! ### What goes together -/

/-- The key `k` was made, and wherever it is found, `l` is found as well. -/
structure Carries (c : Chronicle α) (k l : Key) : Prop where
  made : k ∈ c.made.map Record.key
  has : ∀ t, c.world.Offers t → t.has k → t.has l

/-- An operation finds `k` and `l` or makes neither, since `k` was made before; a commit takes `l`
along with `k`. -/
theorem Carries.step {k l : Key} (h : c.Carries k l) (hc : c.Sound) (hstep : c.Step c') :
    c'.Carries k l := by
  obtain ⟨hsub, hfresh⟩ := hstep.made hc.fresh
  refine ⟨List.map_subset _ hsub h.made, fun t ht hk => ?_⟩
  cases hstep.emerges ht with
  | kept ht => exact h.has t ht hk
  | used hs hmade heq =>
    rw [heq, List.map_append] at hfresh
    have hnew := (List.nodup_append.1 hfresh).2.2
    refine (hmade.has_iff l).2 (.inl (h.has _ (.view hs) ?_))
    exact ((hmade.has_iff k).1 hk).resolve_right fun hmem => hnew k h.made k hmem rfl
  | committed hs =>
    rcases hc.reachable.sound.has_apply_cases hs hk with hk | hk
    · exact Committed.has_apply (h.has _ .committed hk) _
    · exact hc.reachable.sound.has_apply_of_view hs (h.has _ (.view hs) hk)

/-- A key `k` that is nowhere found without `l` never will be. -/
theorem Leads.carries {k l : Key} (h : c.Leads c') (hc : c.Sound) (hcarries : c.Carries k l) :
    c'.Carries k l := by
  induction h with
  | refl => exact hcarries
  | tail hleads hstep ih => exact ih.step (hc.leads hleads) hstep

end Chronicle

end Propagation
