import Propagation.Proofs.Snapshot

/-!
# What records keep

Records are not free to change. A node that has ended keeps its end, a vector its two nodes and
its death, an info its origin and, once written, its contents, a transmission its info and its
destination; networks and transformations keep everything, and no record disappears. This is an
order on tables, and everything that is done to tables goes up in it.

## Main definitions

* `Node.Le`, `Vector.Le`, `Info.Le`, `Transmission.Le`: what a record of each kind keeps.
* `Record.Le`: the same for a record of any kind.
* `t ≤ u` for tables: every record of `t` is in `u`, and has kept what it has to keep.
* `Tables.Allows`: what is stored under the key of a record may become that record.
* `Tables.AllowsAll`: the same for all records that a transaction wrote.

## Main statements

* `Revision.le_of_accept`, `Request.allows_of_writes`: what is admitted keeps what it has to.
* `Transaction.Becomes.le_view`: requests move the view up.
* `World.Sound.allowsAll`: without a conflict, a commit keeps what it has to.
* `World.Sound.le_apply`: without a conflict, the commit of a serializable session moves the
  committed tables up.
-/

namespace Propagation

/-! ## Records -/

/-- The node `new` keeps the status and the time of the end of `old`, if `old` has ended. -/
def Node.Le (old new : Node) : Prop :=
  old.isAlive = false → new.status = old.status ∧ new.timeOfDeath = old.timeOfDeath

/-- The vector `new` keeps the ends of `old`, and its status and the time of its death, if `old` is
dead. -/
structure Vector.Le (old new : Vector) : Prop where
  origin : new.origin = old.origin
  destination : new.destination = old.destination
  death : old.isAlive = false → new.status = old.status ∧ new.timeOfDeath = old.timeOfDeath

/-- The info `new` keeps the origin of `old`, and is the same if `old` has contents. -/
structure Info.Le (old new : Info) : Prop where
  origin : new.origin = old.origin
  written : old.hasContents → new = old

/-- The transmission `new` keeps the info and the destination of `old`. -/
structure Transmission.Le (old new : Transmission) : Prop where
  info : new.info = old.info
  destination : new.destination = old.destination

/-- What a record keeps, by its kind. -/
def Record.Le : Record → Record → Prop
  | .network old, .network new => new = old
  | .node old, .node new => old.Le new
  | .vector old, .vector new => old.Le new
  | .info old, .info new => old.Le new
  | .transmission old, .transmission new => old.Le new
  | .transformation old, .transformation new => new = old
  | _, _ => False

section Orders

theorem Node.Le.trans {a b c : Node} (h : a.Le b) (h' : b.Le c) : a.Le c := by
  intro ha
  obtain ⟨hs, ht⟩ := h ha
  have hb : b.isAlive = false := by rw [Node.isAlive, hs]; exact ha
  obtain ⟨hs', ht'⟩ := h' hb
  exact ⟨hs'.trans hs, ht'.trans ht⟩

theorem Vector.Le.trans {a b c : Vector} (h : a.Le b) (h' : b.Le c) : a.Le c where
  origin := h'.origin.trans h.origin
  destination := h'.destination.trans h.destination
  death ha := by
    obtain ⟨hs, ht⟩ := h.death ha
    have hb : b.isAlive = false := by rw [Vector.isAlive, hs]; exact ha
    obtain ⟨hs', ht'⟩ := h'.death hb
    exact ⟨hs'.trans hs, ht'.trans ht⟩

theorem Info.Le.trans {a b c : Info} (h : a.Le b) (h' : b.Le c) : a.Le c where
  origin := h'.origin.trans h.origin
  written ha := by
    have hb := h.written ha
    exact (h'.written (by rw [hb]; exact ha)).trans hb

theorem Transmission.Le.trans {a b c : Transmission} (h : a.Le b) (h' : b.Le c) : a.Le c :=
  ⟨h'.info.trans h.info, h'.destination.trans h.destination⟩

theorem Record.Le.refl (r : Record) : r.Le r := by
  cases r with
  | network n => exact rfl
  | node n => exact fun _ => ⟨rfl, rfl⟩
  | vector v => exact ⟨rfl, rfl, fun _ => ⟨rfl, rfl⟩⟩
  | info i => exact ⟨rfl, fun _ => rfl⟩
  | transmission m => exact ⟨rfl, rfl⟩
  | transformation m => exact rfl

theorem Record.Le.trans {a b c : Record} (h : a.Le b) (h' : b.Le c) : a.Le c := by
  cases a <;> cases b <;> first | exact h.elim | skip
  all_goals cases c <;> first | exact h'.elim | skip
  · exact Eq.trans h' h
  · exact Node.Le.trans h h'
  · exact Vector.Le.trans h h'
  · exact Info.Le.trans h h'
  · exact Transmission.Le.trans h h'
  · exact Eq.trans h' h

end Orders

/-! ## Tables -/

namespace Tables

/-- Every record of the lesser tables is in the greater ones, and has kept what it has to keep, by
`Record.Le`. -/
instance : LE Tables := ⟨fun t u => ∀ k r, t.find? k = some r → ∃ r', u.find? k = some r' ∧ r.Le r'⟩

theorem le_refl (t : Tables) : t ≤ t := fun _ r hr => ⟨r, hr, .refl r⟩

theorem le_trans {t u v : Tables} (h : t ≤ u) (h' : u ≤ v) : t ≤ v := by
  intro k r hr
  obtain ⟨r', hr', hle⟩ := h k r hr
  obtain ⟨r'', hr'', hle'⟩ := h' k r' hr'
  exact ⟨r'', hr'', hle.trans hle'⟩

theorem has_of_le {t u : Tables} (h : t ≤ u) {k : Key} (hk : t.has k) : u.has k := by
  obtain ⟨r, hr⟩ := Option.isSome_iff_exists.1 hk
  obtain ⟨r', hr', -⟩ := h k r hr
  rw [has, hr']
  rfl

/-- What is stored in `t` under the key of `r`, if anything, may become `r`. -/
def Allows (t : Tables) (r : Record) : Prop := ∀ old, t.find? r.key = some old → old.Le r

theorem le_put {t : Tables} {r : Record} (h : t.Allows r) : t ≤ t.put r := by
  intro k old hold
  rw [find?_put]
  by_cases hk : r.key = k
  · rw [if_pos hk]
    subst hk
    exact ⟨r, rfl, h old hold⟩
  · rw [if_neg hk]
    exact ⟨old, hold, .refl old⟩

end Tables

/-! ## Requests -/

theorem Tables.requireAll_ok_iff {t : Tables} {keys : List Key} :
    t.requireAll keys = .ok () ↔ ∀ k ∈ keys, t.has k := by
  rw [requireAll, firstMissing?]
  cases hk : keys.find? fun k => !t.has k with
  | some k =>
    have hmem := List.mem_of_find?_eq_some hk
    have hno := List.find?_some hk
    refine iff_of_false nofun ?_
    intro hall
    rw [hall k hmem] at hno
    cases hno
  | none =>
    refine iff_of_true rfl ?_
    intro k hmem
    simpa using List.find?_eq_none.1 hk k hmem

/-- A revision `r` that is accepted keeps what the stored record has to keep. -/
theorem Revision.le_of_accept {t : Tables} {r : Revision} (h : r.accept t = .ok ()) :
    t.Allows r.record := by
  intro old hold
  cases r with
  | node new =>
    obtain ⟨old, ho, rfl⟩ := Option.map_eq_some_iff.1 hold
    simp only [accept, acceptNode, ho] at h
    intro hdead
    grind
  | vector new =>
    obtain ⟨old, ho, rfl⟩ := Option.map_eq_some_iff.1 hold
    simp only [accept, acceptVector, ho] at h
    refine ⟨?_, ?_, fun hdead => ?_⟩ <;> grind
  | info new =>
    obtain ⟨old, ho, rfl⟩ := Option.map_eq_some_iff.1 hold
    simp only [accept, acceptInfo, ho] at h
    refine ⟨?_, fun hwritten => ?_⟩ <;> grind
  | transmission new =>
    obtain ⟨old, ho, rfl⟩ := Option.map_eq_some_iff.1 hold
    simp only [accept, acceptTransmission, ho] at h
    refine ⟨?_, ?_⟩ <;> grind

/-- A revision `r` that is accepted takes the place of a record. -/
theorem Revision.find?_of_accept {t : Tables} {r : Revision} (h : r.accept t = .ok ()) :
    ∃ old, t.find? r.record.key = some old := by
  cases hold : t.find? r.record.key with
  | some old => exact ⟨old, rfl⟩
  | none =>
    cases r with
    | node new =>
      simp only [accept, acceptNode, Option.map_eq_none_iff.1 hold] at h
      cases h
    | vector new =>
      simp only [accept, acceptVector, Option.map_eq_none_iff.1 hold] at h
      cases h
    | info new =>
      simp only [accept, acceptInfo, Option.map_eq_none_iff.1 hold] at h
      cases h
    | transmission new =>
      simp only [accept, acceptTransmission, Option.map_eq_none_iff.1 hold] at h
      cases h

/-- A new record `r` that is accepted takes no other record's place. -/
theorem Record.find?_of_accept {t : Tables} {r : Record} (h : r.accept t = .ok ()) :
    t.find? r.key = none := by
  rw [accept, Tables.has] at h
  cases hr : t.find? r.key with
  | none => rfl
  | some old => rw [hr] at h; cases h

namespace Request

/-- What the request `r` stores is allowed by what is stored already. -/
theorem allows_of_writes {r : Request} {tx : Transaction} {s : Record}
    (h : r.writes tx = some s) : tx.view.Allows s := by
  obtain ⟨hs, hacc, -⟩ := writes_eq_some.1 h
  cases r with
  | insert r =>
    cases hs
    intro old hold
    rw [Record.find?_of_accept hacc] at hold
    cases hold
  | revise r =>
    cases hs
    exact Revision.le_of_accept hacc
  | _ => cases hs

end Request

/-- Requests move the view up. -/
theorem Transaction.Becomes.le_view {P : Request → Prop} {tx tx' : Transaction}
    (h : tx.Becomes P tx') : tx.view ≤ tx'.view := by
  apply h.view_induction (Q := fun t => tx.view ≤ t)
  · intro r t s _ hw ht
    exact Tables.le_trans ht (Tables.le_put (Request.allows_of_writes hw))
  · exact Tables.le_refl _

/-! ## Commits -/

/-- The records that `tx` wrote are allowed where they are to be copied. -/
def Tables.AllowsAll (t : Tables) (tx : Transaction) : Prop :=
  ∀ k ∈ tx.writes, ∀ r, tx.view.find? k = some r → t.Allows r

/-- To copy the record `r`, which `tx` wrote, leaves all of its records allowed. -/
theorem Tables.AllowsAll.put {t : Tables} {tx : Transaction} (h : t.AllowsAll tx)
    (htx : tx.view.Keyed) {k : Key} {r : Record} (hr : tx.view.find? k = some r) :
    (t.put r).AllowsAll tx := by
  intro l hl s hs old hold
  rw [find?_put] at hold
  by_cases hk : r.key = s.key
  · rw [if_pos hk] at hold
    rw [htx k r hr, htx l s hs] at hk
    subst hk
    rw [hr] at hs
    cases hs
    cases hold
    exact .refl r
  · rw [if_neg hk] at hold
    exact h l hl s hs old hold

/-- What no allowed record breaks, `Q` for instance, a commit of allowed records does not break. -/
theorem Committed.apply_of_allowsAll {Q : Tables → Prop}
    (hQ : ∀ t r, t.Allows r → Q t → Q (t.put r)) {tx : Transaction} (htx : tx.view.Keyed)
    {c : Committed} (h : c.tables.AllowsAll tx) (h0 : Q c.tables) : Q (c.apply tx).tables := by
  have hboth : (c.apply tx).tables.AllowsAll tx ∧ Q (c.apply tx).tables := by
    apply apply_induction (Q := fun t => t.AllowsAll tx ∧ Q t)
    · intro k hk t ⟨hall, ht⟩
      rw [Tables.copy]
      cases hr : tx.view.find? k with
      | none => exact ⟨hall, ht⟩
      | some r => exact ⟨hall.put htx hr, hQ t r (hall k hk r hr) ht⟩
    · exact ⟨h, h0⟩
  exact hboth.2

namespace World.Sound

variable {α : Type} {w : World α} (h : w.Sound) {name : Nat} {s : Session α}
  (hs : w.sessions name = some s) (hser : s.tx.isolation = .serializable)
  (hc : w.store.conflicts s.tx = false)
include h hs hser hc

/-- Without a conflict, what a serializable session `s` wrote is allowed by what is committed: that
was not changed since `s` began, and the view of `s` has moved up. -/
theorem allowsAll : w.store.committed.tables.AllowsAll s.tx := by
  have hsound := h.sessions name s hs
  intro k hk r hr old hold
  rw [hsound.keyed_view k r hr, h.find?_committed hs hser hc (.inr (.inl hk))] at hold
  obtain ⟨new, hnew, hle⟩ := hsound.becomes.le_view k old hold
  rw [hr] at hnew
  cases hnew
  exact hle

/-- Without a conflict, the commit of a serializable session `s` moves the committed tables up. -/
theorem le_apply : w.store.committed.tables ≤ (w.store.committed.apply s.tx).tables := by
  apply Committed.apply_of_allowsAll (Q := fun t => w.store.committed.tables ≤ t)
  · intro t r hr ht
    exact Tables.le_trans ht (Tables.le_put hr)
  · exact (h.sessions name s hs).keyed_view
  · exact h.allowsAll hs hser hc
  · exact Tables.le_refl _

end World.Sound

end Propagation
