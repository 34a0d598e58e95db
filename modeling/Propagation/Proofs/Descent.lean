import Propagation.Proofs.History
import Propagation.Proofs.Index

/-!
# Where records come from

Every record that one finds was once stored as a new one, and has since only changed as far as its
kind may. What is committed was stored by a committed transaction; what is in a view was stored by
one or by the session itself.

A key can be given out twice, by two transactions neither of which sees the other. If that happened
to no record that was committed, all records under one key come from one, so that all vectors under
one identifier have the same ends. Then the indexes are in step everywhere.

## Main definitions

* `Trace.inserted`: the records that a session stored as new ones.
* `Record.Akin`: two records come from one.
* `Tables.Descends`: all records come from one of these records.
* `World.born`: the records that committed transactions stored as new ones.
* `World.BornOnce`: no two of these have one key.
* `Record.VectorsApart`: no two vectors have one identifier.

## Main statements

* `World.descends_run`: what is committed, and what is in a snapshot, comes from what was born.
* `World.linked_run_of_vectors`, `World.linked_run`: without twins, the indexes are in step with the
  vectors.
-/

namespace Propagation

/-- The records that were stored as new ones. -/
def Trace.inserted (t : Trace) : List Record :=
  t.filterMap fun
    | (.insert r, .ok _) => some r
    | _ => none

theorem Trace.inserted_append (t u : Trace) : inserted (t ++ u) = t.inserted ++ u.inserted :=
  List.filterMap_append

namespace Record

/-- The records `r` and `r'` come from the same one. -/
def Akin (r r' : Record) : Prop := ∃ r₀ : Record, r₀.Le r ∧ r₀.Le r'

theorem Akin.vector {v v' : Vector} (h : Akin (.vector v) (.vector v')) :
    v'.origin = v.origin ∧ v'.destination = v.destination := by
  obtain ⟨r₀, hle, hle'⟩ := h
  cases r₀ with
  | vector v₀ =>
    exact ⟨(Vector.Le.origin hle').trans (Vector.Le.origin hle).symm,
      (Vector.Le.destination hle').trans (Vector.Le.destination hle).symm⟩
  | _ => exact hle.elim

theorem Akin.info {i i' : Info} (h : Akin (.info i) (.info i')) : i'.origin = i.origin := by
  obtain ⟨r₀, hle, hle'⟩ := h
  cases r₀ with
  | info i₀ => exact (Info.Le.origin hle').trans (Info.Le.origin hle).symm
  | _ => exact hle.elim

theorem Akin.transmission {m m' : Transmission} (h : Akin (.transmission m) (.transmission m')) :
    m.Le m' := by
  obtain ⟨r₀, hle, hle'⟩ := h
  cases r₀ with
  | transmission m₀ =>
    exact ⟨(Transmission.Le.info hle').trans (Transmission.Le.info hle).symm,
      (Transmission.Le.destination hle').trans (Transmission.Le.destination hle).symm⟩
  | _ => exact hle.elim

/-- The vector that a record is, if it is one. -/
def vector? : Record → Option Vector
  | vector v => some v
  | _ => none

theorem vector?_eq_some {r : Record} {v : Vector} : r.vector? = some v ↔ r = .vector v := by
  cases r <;> simp [vector?]

/-- No two vectors in `rs` have one identifier. -/
def VectorsApart (rs : List Record) : Prop := ((rs.filterMap vector?).map (·.id)).Nodup

instance (rs : List Record) : Decidable (VectorsApart rs) :=
  inferInstanceAs (Decidable ((rs.filterMap vector?).map (·.id)).Nodup)

/-- If the records in `rs` have different keys, no two vectors among them have one identifier. -/
theorem vectorsApart_of_nodup {rs : List Record} (h : (rs.map key).Nodup) : VectorsApart rs := by
  rw [VectorsApart, List.Nodup, List.pairwise_map, List.pairwise_filterMap]
  refine (List.pairwise_map.1 h).imp fun {r r'} hne v hv v' hv' hid => hne ?_
  rw [vector?_eq_some.1 hv, vector?_eq_some.1 hv', key, key, hid]

theorem VectorsApart.of_append {rs more : List Record} (h : VectorsApart (rs ++ more)) :
    VectorsApart rs := by
  rw [VectorsApart, List.filterMap_append, List.map_append] at h
  exact (List.nodup_append.1 h).1

theorem VectorsApart.eq {rs : List Record} (h : VectorsApart rs) {v v' : Vector}
    (hv : .vector v ∈ rs) (hv' : .vector v' ∈ rs) (hid : v.id = v'.id) : v = v' :=
  List.inj_on_of_nodup_map h (List.mem_filterMap.2 ⟨_, hv, rfl⟩)
    (List.mem_filterMap.2 ⟨_, hv', rfl⟩) hid

end Record

namespace Tables

/-- Every record in `t` comes from one of `first`, and has kept what it has to keep. -/
def Descends (first : List Record) (t : Tables) : Prop :=
  ∀ k r, t.find? k = some r → ∃ r₀ ∈ first, r₀.key = k ∧ r₀.Le r

namespace Descends

variable {first : List Record} {t u : Tables}

theorem mono {more : List Record} (h : t.Descends first) (hsub : first ⊆ more) :
    t.Descends more := by
  intro k r hr
  obtain ⟨r₀, h₀, hkey, hle⟩ := h k r hr
  exact ⟨r₀, hsub h₀, hkey, hle⟩

theorem put (h : t.Descends first) {r : Record} (hr : ∃ r₀ ∈ first, r₀.key = r.key ∧ r₀.Le r) :
    (t.put r).Descends first := by
  intro k s hs
  rw [find?_put] at hs
  by_cases hk : r.key = k
  · rw [if_pos hk] at hs
    cases hs
    exact hk ▸ hr
  · rw [if_neg hk] at hs
    exact h k s hs

theorem copy (h : t.Descends first) (hu : u.Descends first) (hkeyed : u.Keyed) (k : Key) :
    (Tables.copy u k t).Descends first := by
  rw [Tables.copy]
  split
  · rename_i r hr
    obtain ⟨r₀, h₀, hkey, hle⟩ := hu k r hr
    exact h.put ⟨r₀, h₀, hkey.trans (hkeyed k r hr).symm, hle⟩
  · exact h

/-- Where the records in `first` have different keys, what stands under one key in two tables that
come from them is `Akin`. -/
theorem akin (h : t.Descends first) (h' : u.Descends first) (hfirst : (first.map Record.key).Nodup)
    {k : Key} {r r' : Record} (hr : t.find? k = some r) (hr' : u.find? k = some r') :
    r.Akin r' := by
  obtain ⟨r₀, hmem, hkey, hle⟩ := h k r hr
  obtain ⟨r₁, hmem', hkey', hle'⟩ := h' k r' hr'
  have hsame : r₁ = r₀ := List.inj_on_of_nodup_map hfirst hmem' hmem (hkey'.trans hkey.symm)
  exact ⟨r₀, hle, hsame ▸ hle'⟩

/-- A vector `v` that is stored has the ends of the one that it comes from. -/
theorem vector (h : t.Descends first) {i : VectorId} {v : Vector} (hv : t.vectors[i]? = some v) :
    ∃ v₀, .vector v₀ ∈ first ∧ v₀.id = i ∧ v₀.Le v := by
  obtain ⟨r₀, hmem, hkey, hle⟩ := h (.vector i) _ (find?_vector.2 hv)
  cases r₀ with
  | vector v₀ => exact ⟨v₀, hmem, Key.vector.inj hkey, hle⟩
  | _ => exact hle.elim

/-- Where no two vectors in `first` have one identifier, the vectors that stand under one identifier
have the same ends. -/
theorem ends (h : t.Descends first) (h' : u.Descends first) (hfirst : Record.VectorsApart first)
    {i : VectorId} {v v' : Vector} (hv : t.vectors[i]? = some v) (hv' : u.vectors[i]? = some v') :
    v'.origin = v.origin ∧ v'.destination = v.destination := by
  obtain ⟨v₀, hmem, hid, hle⟩ := h.vector hv
  obtain ⟨v₁, hmem', hid', hle'⟩ := h'.vector hv'
  obtain rfl := hfirst.eq hmem hmem' (hid.trans hid'.symm)
  exact ⟨hle'.origin.trans hle.origin.symm, hle'.destination.trans hle.destination.symm⟩

end Descends

/-- To copy a vector keeps the indexes in step if the vectors of `t` and `u` come from the same
ones. -/
theorem Linked.copy {first : List Record} {t u : Tables} (h : t.Linked) (ht : t.Descends first)
    (hu : u.Descends first) (hkeyed : u.Keyed) (hfirst : Record.VectorsApart first) (k : Key) :
    (Tables.copy u k t).Linked := by
  rw [Tables.copy]
  split
  · rename_i r hr
    refine h.put_of_ends fun v v' hv hv' => ?_
    subst hv
    have hk := hkeyed k _ hr
    subst hk
    exact hu.ends ht hfirst (find?_vector.1 hr) hv'
  · exact h

end Tables

/-! ## Commits -/

namespace Committed

variable {first : List Record} {tx : Transaction} {c : Committed} (hkeyed : tx.view.Keyed)
  (hview : tx.view.Descends first) (hc : c.tables.Descends first)
include hkeyed hview hc

/-- A commit leaves records that come from `first`, if those of the view and those before do. -/
theorem descends_apply : (c.apply tx).tables.Descends first := by
  apply apply_induction (Q := Tables.Descends first)
  · intro k _ t ht
    exact ht.copy hview hkeyed k
  · exact hc

/-- If no two vectors in `first` have one identifier, a commit keeps the indexes in step. -/
theorem linked_apply (hfirst : Record.VectorsApart first) (h : c.tables.Linked) :
    (c.apply tx).tables.Linked := by
  refine (apply_induction (Q := fun t => t.Linked ∧ t.Descends first) ?_ ⟨h, hc⟩).1
  intro k _ t ⟨hlinked, ht⟩
  exact ⟨hlinked.copy ht hview hkeyed hfirst k, ht.copy hview hkeyed k⟩

end Committed

/-! ## Requests -/

/-- Requests keep the indexes of the view in step. -/
theorem Transaction.Becomes.linked {P : Request → Prop} {tx tx' : Transaction}
    (h : tx.Becomes P tx') (htx : tx.view.Linked) : tx'.view.Linked := by
  apply h.view_induction (Q := Tables.Linked)
  · intro _ t _ _ hwrites ht
    exact ht.put (Request.allows_of_writes hwrites)
  · exact htx

namespace Request

/-- What a request stores is new, or replaces a record that may become what is stored. -/
theorem inserted_or_replaces {tx : Transaction} {r : Request} {s : Record}
    (hw : r.writes tx = some s) : s ∈ Trace.inserted [(r, r.answer tx)] ∨
      ∃ old, tx.view.find? s.key = some old ∧ old.Le s := by
  obtain ⟨hs, hacc, hmode⟩ := writes_eq_some.1 hw
  have hanswer : r.answer tx = .ok (r.reply tx.view) := by
    rw [answer_eq, (check_ok_iff hs tx).2 ⟨hacc, hmode⟩]
    rfl
  cases r with
  | insert r =>
    cases hs
    exact .inl (by rw [hanswer]; exact .head _)
  | revise r =>
    cases hs
    obtain ⟨old, hold⟩ := Revision.find?_of_accept hacc
    exact .inr ⟨old, hold, Revision.le_of_accept hacc old hold⟩
  | _ => cases hs

theorem descends_after {first : List Record} {tx : Transaction} (h : tx.view.Descends first)
    (r : Request) :
    (r.after tx).view.Descends (first ++ Trace.inserted [(r, r.answer tx)]) := by
  have hview : tx.view.Descends (first ++ Trace.inserted [(r, r.answer tx)]) :=
    h.mono (List.subset_append_left _ _)
  rw [view_after]
  cases hw : r.writes tx with
  | none => exact hview
  | some s =>
    refine hview.put ?_
    rcases inserted_or_replaces hw with hs | ⟨old, hold, hle⟩
    · exact ⟨s, List.mem_append_right _ hs, rfl, .refl s⟩
    · obtain ⟨r₀, h₀, hkey, hle₀⟩ := h _ old hold
      exact ⟨r₀, List.mem_append_left _ h₀, hkey, hle₀.trans hle⟩

/-- After the requests `rs`, the records of the view come from those of before and from those that
were stored as new ones. -/
theorem descends_afterAll {first : List Record} (rs : List Request) {tx : Transaction}
    (h : tx.view.Descends first) :
    (afterAll rs tx).view.Descends (first ++ (trace rs tx).inserted) := by
  induction rs generalizing first tx with
  | nil => simpa [trace, Trace.inserted] using h
  | cons r rs ih =>
    have hrest := ih (descends_after h r)
    rw [List.append_assoc] at hrest
    rw [trace, ← List.singleton_append, Trace.inserted_append]
    exact hrest

end Request

/-! ## Worlds -/

namespace World

/-- The records that committed transactions of `w` stored as new ones. -/
def born (w : World Trace) : List Record := w.log.flatMap (·.note.inserted)

/-- No key was given to two of the records that committed transactions stored as new ones. -/
def BornOnce (w : World Trace) : Prop := (w.born.map Record.key).Nodup

instance (w : World Trace) : Decidable w.BornOnce :=
  inferInstanceAs (Decidable (w.born.map Record.key).Nodup)

/-- What is committed in `w`, and what is in a snapshot, was born. -/
def Descends (w : World Trace) : Prop := w.Throughout (Tables.Descends w.born)

variable {w : World Trace}

/-- The commit of the session `s` adds to what was born what `s` stored as new. -/
theorem born_commit {name : Nat} {s : Session Trace}
    (hlog : (w.step (.commit name)).log = w.log ++ [s]) :
    (w.step (.commit name)).born = w.born ++ s.note.inserted := by
  rw [born, hlog, List.flatMap_append, List.flatMap_singleton, born]

/-- What was born stays. -/
theorem born_step (w : World Trace) (e : Event) : ∃ more, (w.step e).born = w.born ++ more := by
  cases e with
  | ask name r => exact ⟨[], by rw [born, step, log_use, List.append_nil, born]⟩
  | commit name =>
    rcases commit_cases w name with ⟨hlog, -⟩ | ⟨s, -, -, hlog, -⟩
    · exact ⟨[], by rw [born, step, hlog, List.append_nil, born]⟩
    · exact ⟨_, born_commit hlog⟩
  | _ => exact ⟨[], (List.append_nil _).symm⟩

/-- The records of the view of `s` were born, or stored by `s`. -/
theorem Descends.view (h : w.Descends) (ht : w.Traced) {name : Nat} {s : Session Trace}
    (hs : w.sessions name = some s) : s.tx.view.Descends (w.born ++ s.note.inserted) := by
  have htraced := ht.sessions name s hs
  rw [htraced.tx_eq, htraced.note_eq, Request.map_fst_trace]
  exact Request.descends_afterAll _ (h.start name s hs)

/-- The records that a commit of `s` leaves were born or stored by `s`, and its indexes stay in step
if no two vectors among these have one identifier. -/
theorem Descends.apply (h : w.Descends) (hw : w.Sound) (ht : w.Traced) {name : Nat}
    {s : Session Trace} (hs : w.sessions name = some s) :
    (w.store.committed.apply s.tx).tables.Descends (w.born ++ s.note.inserted) ∧
      (Record.VectorsApart (w.born ++ s.note.inserted) → w.store.committed.tables.Linked →
        (w.store.committed.apply s.tx).tables.Linked) := by
  have hview := h.view ht hs
  have hkeyed := (hw.sessions name s hs).keyed_view
  have hcommitted := h.committed.mono (List.subset_append_left w.born s.note.inserted)
  exact ⟨Committed.descends_apply hkeyed hview hcommitted,
    Committed.linked_apply hkeyed hview hcommitted⟩

theorem descends_init (mint : Mint) : (init mint).Descends :=
  ⟨fun k r hr => by cases k <;> simp [Tables.find?, init] at hr, nofun⟩

theorem descends_step (hw : w.Sound) (ht : w.Traced) (h : w.Descends) (e : Event) :
    (w.step e).Descends := by
  obtain ⟨more, hborn⟩ := born_step w e
  have hmono : w.Throughout (Tables.Descends (w.step e).born) := h.mono fun t ht => by
    rw [hborn]
    exact ht.mono (List.subset_append_left _ _)
  refine hmono.after e fun name s he hs hlog => ?_
  subst he
  rw [born_commit hlog]
  exact (h.apply hw ht hs).1

theorem descends_run (mint : Mint) (events : List Event) : (run mint events).Descends :=
  run_induction mint events (descends_init mint) fun _ e hw ht h => descends_step hw ht h e

/-! ## Indexes in step -/

/-- The indexes of what is committed in `w` and of all snapshots are in step with the vectors. -/
def Linked (w : World Trace) : Prop := w.Throughout Tables.Linked

/-- The indexes of a view of `w` are in step if those of the snapshot are. -/
theorem Linked.view (h : w.Linked) (hw : w.Sound) {name : Nat} {s : Session Trace}
    (hs : w.sessions name = some s) : s.tx.view.Linked :=
  (hw.sessions name s hs).becomes.linked (h.start name s hs)

/-- A commit copies vectors that have the ends under which they may be listed already. -/
theorem linked_step (hw : w.Sound) (ht : w.Traced) (hd : w.Descends) (h : w.Linked) (e : Event)
    (hborn : Record.VectorsApart (w.step e).born) : (w.step e).Linked := by
  refine h.after e fun name s he hs hlog => ?_
  subst he
  rw [born_commit hlog] at hborn
  exact (hd.apply hw ht hs).2 hborn h.committed

/-- Where no two vectors were given one identifier, the indexes are in step with the vectors. -/
theorem linked_run_of_vectors (mint : Mint) (events : List Event)
    (hborn : Record.VectorsApart (run mint events).born) : (run mint events).Linked := by
  have h : (run mint events).Descends ∧
      (Record.VectorsApart (run mint events).born → (run mint events).Linked) := by
    apply run_induction (Q := fun w => w.Descends ∧ (Record.VectorsApart w.born → w.Linked))
      mint events
    · exact ⟨descends_init mint, fun _ => ⟨Tables.linked_empty, nofun⟩⟩
    · intro w e hw ht ⟨hd, h⟩
      refine ⟨descends_step hw ht hd e, fun hborn => ?_⟩
      obtain ⟨more, hmore⟩ := born_step w e
      exact linked_step hw ht hd (h (hmore ▸ hborn).of_append) e hborn
  exact h.2 hborn

/-- Where no key was given out twice, the indexes are in step with the vectors. -/
theorem linked_run (mint : Mint) (events : List Event) (hborn : (run mint events).BornOnce) :
    (run mint events).Linked :=
  linked_run_of_vectors mint events (Record.vectorsApart_of_nodup hborn)

end World

end Propagation
