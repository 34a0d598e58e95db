import Propagation.Proofs.Finality

/-!
# Drawing identifiers

Identifiers are drawn from the mint one after the other, also by operations that fail later on, and
none is ever put back. What was drawn up to some moment is therefore the beginning of what will have
been drawn at any later one, and if the identifiers are all different in the end, they were so from
the start: each one was new when it was drawn.

## Main definitions

* `IdSource.given`: the identifiers that a source has given out.
* `Draws`: a computation that does nothing to the source but draw.
* `Tables.IssuedBy`: all records of a kind have identifiers that were drawn.
* `Tables.keys`: the keys of the records of a kind.
* `Tables.Unused`: no record of a kind has an identifier that is drawn from now until later.

## Main statements

* `Draws.bind`, `Draws.mapM` and siblings: computations that draw may be put together.
* `Node.draws_create`, `Network.draws_addAgent` and siblings: the operations draw.
* `Tables.IssuedBy.unused`: what is drawn later, and is all different, is unused.
* `Tables.Unused.of_prefix`, `Tables.Unused.anti`, `Tables.Unused.putAll`: what is unused stays so.
* `World.given_use`: what was drawn before an operation was drawn after it.
-/

namespace Propagation

/-- The identifiers that `s` has given out, as numbers, in order. -/
def IdSource.given (s : IdSource) : List Nat :=
  (List.range s.drawn).map fun k => (s.draw k).toNat

@[simp] theorem IdSource.given_next (e : Entity) (s : IdSource) :
    (s.next e).2.given = s.given ++ [(s.next e).1.number] := by
  simp [given, next, List.range_succ, Id.number]

/-- The identifiers of all records of kind `e` were given out by `s`. -/
def Tables.IssuedBy (s : IdSource) (e : Entity) (t : Tables) : Prop :=
  ∀ k : Key, k.entity = e → t.has k → k.number ∈ s.given

/-- The keys of the records of a kind that are in `t`. -/
def Tables.keys (t : Tables) : Entity → List Key
  | .network => t.networks.keys.map .network
  | .node => t.nodes.keys.map .node
  | .vector => t.vectors.keys.map .vector
  | .info => t.infos.keys.map .info
  | .transmission => t.transmissions.keys.map .transmission
  | .transformation => t.transformations.keys.map .transformation

theorem Tables.mem_keys {t : Tables} {e : Entity} {k : Key} :
    k ∈ t.keys e ↔ k.entity = e ∧ t.has k := by
  cases e <;> cases k <;> simp [keys, Key.entity, has, find?]

instance (t : Tables) (s : IdSource) (e : Entity) : Decidable (t.IssuedBy s e) :=
  decidable_of_iff (∀ k ∈ t.keys e, k.number ∈ s.given) <| by
    simp only [Tables.mem_keys, and_imp, Tables.IssuedBy]

/-- Identifiers that were issued by `s` stay issued while others are drawn. -/
theorem Tables.IssuedBy.mono {s s' : IdSource} {e : Entity} {t : Tables} (h : t.IssuedBy s e)
    (hs : s.given <+: s'.given) : t.IssuedBy s' e := fun k hk hhas => hs.subset (h k hk hhas)

/-- What is given out on the way from `s` to `s'` is all different, and no record of kind `e` has
it. -/
def Tables.Unused (t : Tables) (e : Entity) (s s' : IdSource) : Prop :=
  ∃ new, s'.given = s.given ++ new ∧ new.Nodup ∧ ∀ k ∈ t.keys e, k.number ∉ new

instance (t : Tables) (e : Entity) (s s' : IdSource) : Decidable (t.Unused e s s') :=
  let new := s'.given.drop s.given.length
  decidable_of_iff (s'.given = s.given ++ new ∧ new.Nodup ∧ ∀ k ∈ t.keys e, k.number ∉ new) <| by
    refine ⟨fun h => ⟨new, h⟩, ?_⟩
    rintro ⟨given, hgiven, h⟩
    have hnew : new = given := (congrArg _ hgiven).trans List.drop_left
    rw [hnew]
    exact ⟨hgiven, h⟩

/-- Where records have identifiers that were issued by `s`, those that are given out later, until
`s'`, and are all different, are unused. -/
theorem Tables.IssuedBy.unused {t : Tables} {s s' : IdSource} {e : Entity} (h : t.IssuedBy s e)
    (hs : s.given <+: s'.given) (hfresh : s'.given.Nodup) : t.Unused e s s' := by
  obtain ⟨new, hnew⟩ := hs
  rw [← hnew, List.nodup_append] at hfresh
  refine ⟨new, hnew.symm, hfresh.2.1, fun k hk hmem => ?_⟩
  obtain ⟨hentity, hhas⟩ := mem_keys.1 hk
  exact hfresh.2.2 _ (h k hentity hhas) _ hmem rfl

namespace Tables.Unused

variable {t u : Tables} {e : Entity} {s s₁ s' : IdSource} (h : t.Unused e s s')
include h

/-- Tables `u` that have no records of the kind but under the keys of `t` use no more
identifiers than `t`. -/
theorem anti (hu : ∀ k : Key, k.entity = e → u.has k → t.has k) : u.Unused e s s' := by
  obtain ⟨new, hnew, hnodup, hkeys⟩ := h
  refine ⟨new, hnew, hnodup, fun k hk => ?_⟩
  obtain ⟨hentity, hhas⟩ := mem_keys.1 hk
  exact hkeys k (mem_keys.2 ⟨hentity, hu k hentity hhas⟩)

section Given

variable {new : List Nat} (hnew : s₁.given = s.given ++ new) (hs : s₁.given <+: s'.given)
include hnew hs

/-- What is given out between `s` and `s'` begins with what is given out between `s` and `s₁`. -/
theorem exists_later : ∃ later, s'.given = s₁.given ++ later ∧ (new ++ later).Nodup ∧
    ∀ k ∈ t.keys e, k.number ∉ new ++ later := by
  obtain ⟨all, hall, hnodup, hkeys⟩ := h
  obtain ⟨later, hlater⟩ := hs
  have happend : all = new ++ later := by
    rw [← hlater, hnew, List.append_assoc] at hall
    exact (List.append_cancel_left hall).symm
  subst happend
  exact ⟨later, hlater.symm, hnodup, hkeys⟩

/-- What is given out first, the identifiers in `new`, is all different. -/
theorem nodup : new.Nodup := by
  obtain ⟨later, -, hnodup, -⟩ := h.exists_later hnew hs
  exact (List.nodup_append.1 hnodup).1

end Given

omit h in
/-- An identifier in `new`, which is what is given out first, is free. -/
theorem free {k : Key} (h : t.Unused k.entity s s') {new : List Nat}
    (hnew : s₁.given = s.given ++ new) (hs : s₁.given <+: s'.given) (hk : k.number ∈ new) :
    t.has k = false := by
  obtain ⟨later, -, -, hkeys⟩ := h.exists_later hnew hs
  rw [← Bool.not_eq_true]
  intro hhas
  exact hkeys k (mem_keys.2 ⟨rfl, hhas⟩) (List.mem_append_left _ hk)

/-- What is given out until `s₁`, on the way from `s` to `s'`, is unused. -/
theorem of_prefix (hfirst : s.given <+: s₁.given) (hs : s₁.given <+: s'.given) :
    t.Unused e s s₁ := by
  obtain ⟨new, hnew⟩ := hfirst
  obtain ⟨later, -, hnodup, hkeys⟩ := h.exists_later hnew.symm hs
  exact ⟨new, hnew.symm, (List.nodup_append.1 hnodup).1, fun k hk hmem =>
    hkeys k hk (List.mem_append_left _ hmem)⟩

/-- After the records `rs` have got the first identifiers, the others are unused. -/
theorem putAll {rs : List Record} (hnew : s₁.given = s.given ++ rs.map (·.key.number))
    (hs : s₁.given <+: s'.given) : (t.putAll rs).Unused e s₁ s' := by
  obtain ⟨later, hlater, hnodup, hkeys⟩ := h.exists_later hnew hs
  refine ⟨later, hlater, (List.nodup_append.1 hnodup).2.1, fun k hk hmem => ?_⟩
  obtain ⟨hentity, hhas⟩ := mem_keys.1 hk
  rcases (has_putAll rs t).1 hhas with hrecord | hhas
  · obtain ⟨r, hr, rfl⟩ := List.mem_map.1 hrecord
    exact (List.nodup_append.1 hnodup).2.2 _ (List.mem_map_of_mem hr) _ hmem rfl
  · exact hkeys k (mem_keys.2 ⟨hentity, hhas⟩) (List.mem_append_right _ hmem)

/-- After the record `r` has got the first identifier, the others are unused. -/
theorem put {r : Record} (hfirst : s₁.given = s.given ++ [r.key.number])
    (hs : s₁.given <+: s'.given) : (t.put r).Unused e s₁ s' :=
  show (t.putAll [r]).Unused e s₁ s' from h.putAll hfirst hs

/-- A record of a kind other than `e` uses none of them. -/
theorem put_of_ne {r : Record} (hne : r.key.entity ≠ e) : (t.put r).Unused e s s' := by
  refine h.anti fun k hk hhas => ?_
  rw [has_put, Bool.or_eq_true, decide_eq_true_eq] at hhas
  rcases hhas with rfl | hhas
  · exact absurd hk hne
  · exact hhas

end Tables.Unused

/-- A use of the mint that draws. -/
def Minting.Draws {α : Type} (a : Minting α) : Prop := ∀ m, m.ids.given <+: (a m).2.ids.given

/-- A record of `Node.fresh` draws one identifier. -/
theorem Node.given_fresh (kind : NodeKind) (m : Mint) :
    (Node.fresh kind m).2.ids.given = m.ids.given ++ [(Node.fresh kind m).1.id.number] :=
  IdSource.given_next .node m.ids

theorem Vector.given_fresh (origin destination : NodeId) (m : Mint) :
    (Vector.fresh origin destination m).2.ids.given =
      m.ids.given ++ [(Vector.fresh origin destination m).1.id.number] :=
  IdSource.given_next .vector m.ids

theorem Network.draws_fresh (kind : NetworkKind) : (Network.fresh kind).Draws := fun m => by
  rw [show (Network.fresh kind m).2.ids.given = m.ids.given ++ [(Network.fresh kind m).1.id.number]
    from IdSource.given_next .network m.ids]
  exact List.prefix_append _ _

theorem Node.draws_fresh (kind : NodeKind) : (Node.fresh kind).Draws := fun m => by
  rw [Node.given_fresh]
  exact List.prefix_append _ _

theorem Vector.draws_fresh (origin destination : NodeId) :
    (Vector.fresh origin destination).Draws := fun m => by
  rw [Vector.given_fresh]
  exact List.prefix_append _ _

theorem Minting.draws_now : Minting.now.Draws := fun _ => List.prefix_rfl

/-- States of computations that draw from a source. -/
class Supplied (σ : Type) where
  ids : σ → IdSource

instance : Supplied Scene := ⟨fun s => s.mint.ids⟩

instance {ρ : Type} : Supplied (Holder ρ) := ⟨fun h => h.scene.mint.ids⟩

open Supplied (ids)

variable {σ ρ α β : Type}

/-- Wherever `a` starts, it leaves the source with more identifiers given out. -/
def Draws [Supplied σ] (a : EStateM Error σ α) : Prop :=
  ∀ s, (ids s).given <+: (ids (final (a s))).given

namespace Draws

section Combinators

variable [Supplied σ]

theorem pure (v : α) : Draws (Pure.pure v : EStateM Error σ α) := fun _ => List.prefix_rfl

theorem throw (e : Error) : Draws (MonadExcept.throw e : EStateM Error σ α) :=
  fun _ => List.prefix_rfl

theorem ofExcept (r : Except Error α) : Draws (MonadExcept.ofExcept r : EStateM Error σ α) := by
  cases r with
  | error e => exact throw e
  | ok v => exact pure v

/-- What `a` draws is the beginning of what `a` draws together with what follows. -/
theorem prefix_bind (a : EStateM Error σ α) {f : α → EStateM Error σ β} (hf : ∀ v, Draws (f v))
    (s : σ) : (ids (final (a s))).given <+: (ids (final ((a >>= f) s))).given := by
  change _ <+: (ids (final (EStateM.bind a f s))).given
  rw [EStateM.bind]
  cases a s with
  | ok v s' => exact hf v s'
  | error e s' => exact List.prefix_rfl

theorem bind {a : EStateM Error σ α} {f : α → EStateM Error σ β} (ha : Draws a)
    (hf : ∀ v, Draws (f v)) : Draws (a >>= f) := fun s => (ha s).trans (prefix_bind a hf s)

theorem mapM {f : α → EStateM Error σ β} (hf : ∀ v, Draws (f v)) (l : List α) :
    Draws (l.mapM f) := by
  induction l with
  | nil => exact pure []
  | cons v l ih =>
    rw [List.mapM_cons]
    exact (hf v).bind fun _ => ih.bind fun _ => pure _

end Combinators

theorem minting {a : Minting α} (h : a.Draws) : Draws (liftM a : Op α) := fun s => h s.mint

/-- To use the transaction by `a` draws nothing. -/
theorem access (a : Access α) : Draws (liftM a : Op α) := by
  intro s
  change (ids s).given <+: (ids (final (Op.access a s))).given
  rw [Op.access]
  cases a s.tx <;> exact List.prefix_rfl

theorem op {a : Op α} (h : Draws a) : Draws (liftM a : Holding ρ α) := by
  intro s
  have := h s.scene
  change s.scene.mint.ids.given <+: (final (Holding.op a s)).scene.mint.ids.given
  rw [Holding.op]
  cases ha : a s.scene <;> rw [ha] at this <;> exact this

theorem copy : Draws (Holding.copy : Holding ρ ρ) := fun _ => List.prefix_rfl

theorem refresh (r : ρ) : Draws (Holding.refresh r : Holding ρ Unit) := fun _ => List.prefix_rfl

theorem on {a : Holding ρ α} (h : Draws a) (copy : ρ) : Draws (Holding.on copy a) := fun scene => by
  rw [Holding.scene_final_on]
  exact h { copy, scene }

end Draws

/-! ## Operations -/

theorem Node.draws_create (kind : NodeKind) : Draws (create kind) :=
  .bind (.minting (draws_fresh kind)) fun _ => .access _

theorem Node.draws_connect (origin destination : NodeId) : Draws (connect origin destination) :=
  .bind (.minting (Vector.draws_fresh origin destination)) fun _ =>
    .bind (.access _) fun _ => .pure _

theorem Node.draws_finish (target : NodeStatus) : Draws (finish target) := by
  refine .bind .copy fun _ => .bind (.op (.access _)) fun stored => ?_
  refine .bind (.op (.minting Minting.draws_now)) fun now => .bind (.ofExcept _) fun moved => ?_
  cases moved with
  | some n => exact .bind (.op (.access _)) fun _ => .refresh n
  | none => exact .refresh stored

namespace Network

theorem draws_create (kind : NetworkKind) : Draws (create kind) :=
  .bind (.minting (draws_fresh kind)) fun _ => .bind (.access _) fun _ => .pure _

theorem draws_adopt (network : Network) (role : NodeRole) : Draws (network.adopt role) := by
  refine .bind .copy fun _ => ?_
  split
  · exact .bind (.throw _) fun _ => .bind (.op (.access _)) fun _ =>
      .bind (.op (.access _)) fun _ => .refresh _
  · exact .bind (.op (.access _)) fun _ => .bind (.op (.access _)) fun _ => .refresh _

theorem draws_wire (ends : List (NodeId × NodeId)) : Draws (wire ends) :=
  .mapM (fun _ => Node.draws_connect _ _) ends

theorem draws_addAgent (network : Network) : Draws network.addAgent :=
  .bind (.op (.access _)) fun _ => .bind (network.draws_adopt .agent) fun _ =>
    .bind .copy fun _ => .op (draws_wire _)

end Network

/-! ## Worlds -/

namespace World

/-- What was given out before the operation `op` is the beginning of what is given out after it. -/
theorem given_use {w : World α} {name : Nat} {op : Op β} {remark : Except Error β → α → α}
    (h : Draws op) :
    w.store.mint.ids.given <+: (w.use name op remark).store.mint.ids.given := by
  rw [use]
  cases hs : w.sessions name with
  | none => exact List.prefix_rfl
  | some s =>
    have hdraws := h { tx := s.tx, mint := w.store.mint }
    change _ <+: (w.store.run op s.tx).2.mint.ids.given
    rw [Store.run]
    cases hop : op { tx := s.tx, mint := w.store.mint } <;> rw [hop] at hdraws <;> exact hdraws

theorem mint_commit {w : World α} {name : Nat} : (w.commit name).store.mint = w.store.mint := by
  rw [commit]
  cases hs : w.sessions name with
  | none => rfl
  | some s =>
    cases hc : w.store.conflicts s.tx with
    | true => simp only [Store.commit_of_conflicts hc]; rfl
    | false => simp only [Store.commit_of_not_conflicts hc]; rfl

end World

end Propagation
