import Propagation.Proofs.Chronology
import Propagation.Proofs.Drawing
import Propagation.Proofs.Edge

/-!
# Operations that copy infos

Operations that create infos, write their contents and copy them, and leave infos and
transformations alone otherwise. What they do is broken up into steps, each of which is one of these
or does nothing to infos at all. An info that is copied is a row that can be looked at, or could be
at some time. An identifier that was made up will not do: it might be the one that is drawn next,
and the copy would be a copy of itself.

To receive everything with a behavior that copies is to look up the infos of what was received, and
then to copy each of them; none of the copies takes the place of an info that is still to be copied.

## Main definitions

* `Mint.Precedes`: a mint that has gone on.
* `Tables.Shows`: a record can be found in the tables.
* `Request.Stores`: requests that store nothing but records of some sort.
* `Scene.Evolves`: one step.
* `Staged`: what an operation may run on, a scene or the scene under a copy that is held.
* `Curates`: an operation that does nothing but such steps.

## Main statements

* `Transaction.Becomes.find?_cases`, `Transaction.Becomes.shows_cases`: what is shown in the end was
  shown before, or was stored.
* `Scene.evolves_bind`: one operation after another evolves a scene as the two of them do.
* `Curates.bind`, `Curates.mapM` and siblings: such operations may be put together.
* `Curates.of_apart`: operations that leave infos and transformations alone are among them.
* `Info.curates_create`, `Info.curates_write`: the steps themselves.
* `Node.curates_transmit`: sending, if the hooks of the behavior do no more.
* `Node.curates_receiveAll`: receiving with a behavior that copies.
* `Change.curates`: so are the operations on copies that are held and on networks.
-/

namespace Propagation

/-! ## The mint goes on -/

/-- The mint `m` has gone on to `m'`: what it had given out comes first in what it has given out
now, and the clock has not gone back. -/
structure Mint.Precedes (m m' : Mint) : Prop where
  given : m.ids.given <+: m'.ids.given
  reached : ∀ t, m.clock.Reached t → m'.clock.Reached t

namespace Mint

/-- The mint after a time and an identifier for a record of kind `e` were taken. -/
def spend (e : Entity) (m : Mint) : Mint := { clock := m.clock.tick.2, ids := (m.ids.next e).2 }

theorem Precedes.refl (m : Mint) : m.Precedes m := ⟨List.prefix_rfl, fun _ h => h⟩

theorem Precedes.trans {m m' m'' : Mint} (h : m.Precedes m') (h' : m'.Precedes m'') :
    m.Precedes m'' :=
  ⟨h.given.trans h'.given, fun t ht => h'.reached t (h.reached t ht)⟩

theorem precedes_tick (m : Mint) : m.Precedes { m with clock := m.clock.tick.2 } :=
  ⟨List.prefix_rfl, fun _ h => ⟨_, rfl, Nat.le_of_lt h.lt_tick⟩⟩

theorem precedes_spend (e : Entity) (m : Mint) : m.Precedes (m.spend e) where
  given := by
    rw [spend, IdSource.given_next]
    exact List.prefix_append _ _
  reached := m.precedes_tick.reached

end Mint

/-! ## Steps -/

/-- The record `r` is found in the tables. -/
def Tables.Shows (t : Tables) (r : Record) : Prop := ∃ k, t.find? k = some r

theorem Tables.shows_put {t : Tables} {r s : Record} (h : (t.put r).Shows s) :
    t.Shows s ∨ s = r := by
  obtain ⟨k, hk⟩ := h
  rw [find?_put] at hk
  split at hk
  · exact .inr (Option.some.inj hk).symm
  · exact .inl ⟨k, hk⟩

theorem Tables.shows_copy {t u : Tables} {k : Key} {s : Record} (h : (copy u k t).Shows s) :
    t.Shows s ∨ u.Shows s := by
  rw [copy] at h
  split at h
  · rename_i r hr
    rcases shows_put h with h | rfl
    · exact .inl h
    · exact .inr ⟨k, hr⟩
  · exact .inl h

/-- All that the request stores is `new`. -/
def Request.Stores (new : Record → Prop) (r : Request) : Prop := ∀ s, r.stored? = some s → new s

theorem Request.stores_of_stored?_none {new : Record → Prop} {r : Request}
    (h : r.stored? = none) : r.Stores new := by
  intro s hs
  rw [h] at hs
  cases hs

theorem Request.stores_insert {new : Record → Prop} {r : Record} (h : new r) :
    (insert r).Stores new := by
  rintro s ⟨⟩
  exact h

theorem Request.stores_revise {new : Record → Prop} {r : Revision} (h : new r.record) :
    (revise r).Stores new := by
  rintro s ⟨⟩
  exact h

/-- What is found under the key `k` in the end was found there before, or was stored meanwhile. -/
theorem Transaction.Becomes.find?_cases {new : Record → Prop} {tx tx' : Transaction}
    (h : tx.Becomes (Request.Stores new) tx') {k : Key} {r : Record}
    (hr : tx'.view.find? k = some r) : tx.view.find? k = some r ∨ new r := by
  refine h.view_induction
    (Q := fun t => ∀ r, t.find? k = some r → tx.view.find? k = some r ∨ new r) ?_
    (fun _ => .inl) r hr
  intro q u s hq hw hu r hr
  rw [Tables.find?_put] at hr
  split at hr
  · cases hr
    exact .inr (hq _ (Request.writes_eq_some.1 hw).1)
  · exact hu r hr

/-- A record `r` that is shown in the end was shown before, or was stored meanwhile. -/
theorem Transaction.Becomes.shows_cases {new : Record → Prop} {tx tx' : Transaction}
    (h : tx.Becomes (Request.Stores new) tx') {r : Record} (hr : tx'.view.Shows r) :
    tx.view.Shows r ∨ new r := by
  obtain ⟨k, hk⟩ := hr
  exact (h.find?_cases hk).imp_left fun hk => ⟨k, hk⟩

/-- The record is neither an info nor a transformation. -/
def Record.Apart (r : Record) : Prop := r.key.entity ≠ .info ∧ r.key.entity ≠ .transformation

/-- One step of what happens to infos: nothing, while other records are stored or the mint goes on;
or one is created, or its contents are written, or it is copied. Infos that `held` tells of may be
copied, and those of the view. -/
inductive Scene.Evolves (held : Info → Prop) : Scene → Scene → Prop
  | ask {r : Request} (h : r.Stores Record.Apart) (s : Scene) :
    Evolves held s { s with tx := r.after s.tx }
  | mint {s : Scene} {m : Mint} (h : s.mint.Precedes m) : Evolves held s { s with mint := m }
  | create (origin : NodeId) (infoType contents : String) (s : Scene) :
    Evolves held s (final (Info.create origin infoType contents s))
  | write (copy : Info) (contents : String) (s : Scene) :
    Evolves held s (final (Holding.on copy (Info.write contents) s))
  | replicate (n : Node) {i : Info} {s : Scene} (h : held i ∨ s.tx.view.Shows (.info i)) :
    Evolves held s (final (n.replicate i s))

/-- States of computations that take place in a scene. -/
class Staged (σ : Type) where
  scene : σ → Scene

instance : Staged Scene := ⟨id⟩

instance {ρ : Type} : Staged (Holder ρ) := ⟨Holder.scene⟩

open Staged (scene)

/-- The computation `a` does nothing but steps of `Scene.Evolves`, wherever it starts. -/
def Curates {σ α : Type} [Staged σ] (held : Info → Prop) (a : EStateM Error σ α) : Prop :=
  ∀ s, Relation.ReflTransGen (Scene.Evolves held) (scene s) (scene (final (a s)))

variable {held : Info → Prop} {σ ρ α β : Type}

/-- Whatever a step does to the transaction, it does by requests. -/
theorem Scene.Evolves.becomes {s s' : Scene} (h : s.Evolves held s') :
    s.tx.Becomes AnyRequest s'.tx := by
  cases h with
  | ask h s => exact .after trivial _
  | mint h => exact .refl _
  | create origin infoType contents s =>
    exact Info.asks_create (fun _ _ => trivial) origin infoType contents s
  | write copy contents s => exact (Info.asks_write (fun _ _ => trivial) contents).on copy s
  | replicate n h => exact Node.asks_replicate (fun _ _ => trivial) n _ _

theorem Scene.becomes_of_evolves {s s' : Scene}
    (h : Relation.ReflTransGen (Scene.Evolves held) s s') : s.tx.Becomes AnyRequest s'.tx := by
  induction h with
  | refl => exact .refl _
  | tail _ hstep ih => exact ih.trans hstep.becomes

/-- The steps of `f` follow those of `a`, if the computation gets there. -/
theorem Scene.evolves_bind [Staged σ] {a : EStateM Error σ α} {f : α → EStateM Error σ β} {s : σ}
    (ha : Relation.ReflTransGen (Scene.Evolves held) (scene s) (scene (final (a s))))
    (hf : ∀ v s', a s = .ok v s' →
      Relation.ReflTransGen (Scene.Evolves held) (scene s') (scene (final (f v s')))) :
    Relation.ReflTransGen (Scene.Evolves held) (scene s) (scene (final ((a >>= f) s))) := by
  cases hs : a s with
  | ok v s' =>
    rw [hs] at ha
    rw [Op.bind_of_ok hs]
    exact ha.trans (hf v s' hs)
  | error e s' =>
    rw [hs] at ha
    rw [Op.bind_of_error hs]
    exact ha

namespace Curates

theorem asks {op : Op α} (h : Curates held op) : Asks AnyRequest op :=
  fun s => Scene.becomes_of_evolves (h s)

/-! ## Putting computations together -/

section Combinators

variable [Staged σ]

theorem pure (v : α) : Curates held (Pure.pure v : EStateM Error σ α) := fun _ => .refl

theorem throw (e : Error) : Curates held (MonadExcept.throw e : EStateM Error σ α) := fun _ => .refl

theorem ofExcept (r : Except Error α) :
    Curates held (MonadExcept.ofExcept r : EStateM Error σ α) := by
  cases r with
  | error e => exact throw e
  | ok v => exact pure v

theorem bind {a : EStateM Error σ α} {f : α → EStateM Error σ β} (ha : Curates held a)
    (hf : ∀ v, Curates held (f v)) : Curates held (a >>= f) :=
  fun s => Scene.evolves_bind (ha s) fun v s' _ => hf v s'

theorem mapM {f : α → EStateM Error σ β} (hf : ∀ v, Curates held (f v)) (l : List α) :
    Curates held (l.mapM f) := by
  induction l with
  | nil => exact pure []
  | cons v l ih =>
    rw [List.mapM_cons]
    exact (hf v).bind fun _ => ih.bind fun _ => pure _

end Combinators

/-- An operation that stores no info and no transformation leaves infos alone. -/
theorem of_apart {op : Op α} (h : Asks (Request.Stores Record.Apart) op)
    (hmint : ∀ s : Scene, s.mint.Precedes (final (op s)).mint) : Curates held op := by
  intro s
  have hlast : Scene.Evolves held { s with tx := (final (op s)).tx } (final (op s)) :=
    .mint (s := { s with tx := (final (op s)).tx }) (hmint s)
  refine .tail ?_ hlast
  refine Relation.ReflTransGen.lift (fun tx => ({ s with tx } : Scene)) ?_ _ _ (h s)
  rintro tx _ ⟨r, hr, rfl⟩
  exact .ask hr { s with tx }

theorem access {a : Access α} (h : Asks (Request.Stores Record.Apart) a) :
    Curates held (liftM a : Op α) :=
  of_apart (.access h) fun s => by
    rw [Op.final_access]
    exact .refl _

theorem insert {r : Record} (h : r.Apart) : Curates held (liftM (Access.insert r) : Op Unit) :=
  access (.insert (Request.stores_insert h))

theorem revise {r : Revision} (h : r.record.Apart) :
    Curates held (liftM (Access.revise r) : Op Unit) :=
  access (.revise (Request.stores_revise h))

theorem require (k : Key) (f : Tables → Option α) :
    Curates held (liftM (Access.require k f) : Op α) :=
  access (.require (Request.stores_of_stored?_none rfl) f)

theorem minting {a : Minting α} (h : ∀ m : Mint, m.Precedes (a m).2) :
    Curates held (liftM a : Op α) := of_apart (.minting a) fun s => h s.mint

theorem now : Curates held (liftM Minting.now : Op Timestamp) := minting Mint.precedes_tick

theorem op {a : Op α} (h : Curates held a) : Curates held (liftM a : Holding ρ α) := by
  intro s
  have := h s.scene
  change Relation.ReflTransGen _ s.scene (final (Holding.op a s)).scene
  rw [Holding.op]
  cases ha : a s.scene <;> rw [ha] at this <;> exact this

theorem copy : Curates held (Holding.copy : Holding ρ ρ) := fun _ => .refl

theorem refresh (r : ρ) : Curates held (Holding.refresh r : Holding ρ Unit) := fun _ => .refl

theorem on {a : Holding ρ α} (h : Curates held a) (copy : ρ) :
    Curates held (Holding.on copy a) := fun scene => by
  rw [Holding.scene_final_on]
  exact h { copy, scene }

end Curates

/-! ## The operations -/

theorem Info.curates_create (origin : NodeId) (infoType contents : String) :
    Curates held (create origin infoType contents) :=
  fun s => .single (.create origin infoType contents s)

theorem Info.curates_write (copy : Info) (contents : String) :
    Curates held (Holding.on copy (write contents)) := fun s => .single (.write copy contents s)

/-! ### Nodes, vectors and networks -/

theorem Node.curates_create (kind : NodeKind) : Curates held (create kind) := by
  refine .bind (.minting fun m => m.precedes_spend .node) fun n => .access ?_
  exact .bind (.insert (Request.stores_insert ⟨nofun, nofun⟩)) fun _ => .pure n

theorem Node.curates_connect (origin destination : NodeId) :
    Curates held (connect origin destination) := by
  refine .bind (.minting fun m => m.precedes_spend .vector) fun v => ?_
  exact .bind (.insert ⟨nofun, nofun⟩) fun _ => .pure v

theorem Node.curates_finish (target : NodeStatus) : Curates held (finish target) := by
  refine .bind .copy fun node => .bind (.op (.require _ _)) fun stored => ?_
  refine .bind (.op .now) fun now => .bind (.ofExcept _) fun moved => ?_
  cases moved with
  | some n => exact .bind (.op (.revise ⟨nofun, nofun⟩)) fun _ => .refresh n
  | none => exact .refresh stored

theorem Vector.curates_kill : Curates held Vector.kill := by
  refine .bind .copy fun v => .bind (.op (.require _ _)) fun stored => ?_
  refine .bind (.op .now) fun now => ?_
  cases stored.markDead now with
  | some v => exact .bind (.op (.revise ⟨nofun, nofun⟩)) fun _ => .refresh v
  | none => exact .refresh stored

theorem Transmission.curates_receive : Curates held Transmission.receive := by
  refine .bind (.op .now) fun now => .bind .copy fun t => ?_
  exact .bind (.refresh _) fun _ => .bind .copy fun t' => .op (.revise ⟨nofun, nofun⟩)

namespace Network

variable (network : Network)

theorem curates_adopt (role : NodeRole) : Curates held (network.adopt role) := by
  have hstore (i : NodeId) : Curates held (do
      let stored ← Access.requireNode i
      let joined := { stored with network := some network.id }
      Access.revise (.node joined)
      Holding.refresh joined : Holding Node Unit) :=
    .bind (.op (.require _ _)) fun _ => .bind (.op (.revise ⟨nofun, nofun⟩)) fun _ => .refresh _
  refine .bind .copy fun node => ?_
  split
  · exact .bind (.throw _) fun _ => hstore node.id
  · exact hstore node.id

theorem curates_wire (ends : List (NodeId × NodeId)) : Curates held (wire ends) :=
  .mapM (fun _ => Node.curates_connect _ _) ends

theorem curates_agents : Curates held (liftM network.agents : Op (List Node)) :=
  .access (.nodes (Request.stores_of_stored?_none rfl))

theorem curates_addSourceToAll : Curates held network.addSourceToAll := by
  refine .bind (network.curates_adopt .source) fun _ => ?_
  refine .bind (.op network.curates_agents) fun agents => .bind .copy fun source => ?_
  exact .op (curates_wire _)

theorem curates_addSourceTo (agent : NodeId) : Curates held (network.addSourceTo agent) :=
  .bind (network.curates_adopt .source) fun _ => .bind .copy fun _ => .op (curates_wire _)

theorem curates_addAgent : Curates held network.addAgent := by
  refine .bind (.op network.curates_agents) fun earlier => ?_
  exact .bind (network.curates_adopt .agent) fun _ => .bind .copy fun _ => .op (curates_wire _)

end Network

/-! ### Sending -/

namespace Node

theorem curates_send (pair : Info × Node) : Curates held (send pair) := by
  refine .bind (.minting fun m => m.precedes_spend .transmission) fun t => ?_
  exact .bind (.insert ⟨nofun, nofun⟩) fun _ => .pure t

section Plan

variable {b : Behavior} (hcontent : ∀ n, Curates held (b.content n))
  (hrecipients : ∀ n, Curates held (b.recipients n))
include hcontent hrecipients

/-- To `plan` is to look around, and to do what the hooks of the behavior do. -/
theorem curates_plan (n : Node) (c : Option Content) (r : Option Recipients) :
    Curates held (n.plan b c r) := by
  have hread (r : Request) (h : r.stored? = none) : r.Stores Record.Apart :=
    Request.stores_of_stored?_none h
  have hplanned (r : Option Recipients) : Curates held (n.planRecipients b r) := by
    cases r with
    | some r => exact .access (n.asks_someRecipients hread r)
    | none =>
      refine .bind (hrecipients n) fun r => ?_
      cases r with
      | some r => exact .access (n.asks_someRecipients hread r)
      | none => exact .throw _
  cases c with
  | some c =>
    refine .bind (.access (n.asks_someContent hread c)) fun infos => ?_
    exact .bind (hplanned r) fun nodes => .pure _
  | none =>
    refine .bind (hplanned r) fun nodes => .bind (hcontent n) fun c => ?_
    cases c with
    | some c => exact .bind (.access (n.asks_someContent hread c)) fun _ => .pure _
    | none => exact .throw _

/-- To `transmit` is to plan, and to store new transmissions. -/
theorem curates_transmit (n : Node) (c : Option Content) (r : Option Recipients) :
    Curates held (n.transmit b c r) :=
  .bind (curates_plan hcontent hrecipients n c r) fun pairs => .mapM curates_send pairs

end Plan

/-! ### Receiving -/

/-- To `deliver` a transmission leaves infos alone. -/
theorem curates_deliver (t : Transmission) : Curates held (deliver t) :=
  .bind .now fun _ => .bind (.revise ⟨nofun, nofun⟩) fun _ => .bind (.require _ _) fun _ => .pure _

theorem curates_receivePending (n : Node) : Curates held n.receivePending :=
  .bind (.access (.transmissions (Request.stores_of_stored?_none rfl))) fun pending =>
    .mapM curates_deliver pending

/-- To `deliver` a transmission brings an info of the view. -/
theorem shows_of_deliver {t : Transmission} {s s' : Scene} {d : Delivery}
    (h : deliver t s = .ok d s') : s'.tx.view.Shows (.info d.info) := by
  obtain ⟨now, s₁, -, h⟩ := Op.of_bind_ok h
  obtain ⟨-, s₂, -, h⟩ := Op.of_bind_ok h
  obtain ⟨i, s₃, hi, h⟩ := Op.of_bind_ok h
  cases h
  obtain ⟨tx, hrequire, rfl⟩ := Op.of_access_ok hi
  rw [Access.requireInfo, Access.require_apply] at hrequire
  cases hfind : s₂.tx.view.infos[t.info]? with
  | none => simp only [hfind] at hrequire; cases hrequire
  | some j =>
    simp only [hfind] at hrequire
    cases hrequire
    exact ⟨.info t.info, Tables.find?_info.2 hfind⟩

end Node

/-- An info that is shown stays where it is while no other version takes its place. -/
theorem Transaction.Becomes.shows {tx tx' : Transaction}
    (h : tx.Becomes (Request.Leaves .info) tx') {i : Info} (hi : tx.view.Shows (.info i)) :
    tx'.view.Shows (.info i) := by
  obtain ⟨k, hk⟩ := hi
  exact ⟨k, h.find?_of_leaves (Tables.entity_of_find? hk).symm hk⟩

namespace Node

theorem leaves_deliver (t : Transmission) : Asks (Request.Leaves .info) (deliver t) := by
  refine asks_deliver_of_revise (fun m s hs => ?_) (fun _ => Request.leaves_of_stored?_none rfl) t
  cases hs
  nofun

theorem leaves_replicate (n : Node) (i : Info) : Asks (Request.Leaves .info) (n.replicate i) :=
  n.asks_replicate_of_insert (fun _ => Request.leaves_insert _ _)
    (fun _ => Request.leaves_insert _ _) i

/-- The infos of all `deliveries` are still there in the end. -/
theorem shows_of_mapM_deliver (l : List Transmission) {s s' : Scene} {deliveries : List Delivery}
    (h : l.mapM deliver s = .ok deliveries s') :
    ∀ d ∈ deliveries, s'.tx.view.Shows (.info d.info) := by
  induction l generalizing s deliveries with
  | nil =>
    cases h
    simp
  | cons t l ih =>
    rw [List.mapM_cons] at h
    obtain ⟨d, s₁, hd, h⟩ := Op.of_bind_ok h
    obtain ⟨ds, s₂, hds, h⟩ := Op.of_bind_ok h
    cases h
    refine List.forall_mem_cons.2 ⟨?_, ih hds⟩
    exact ((Asks.mapM leaves_deliver l).of_ok hds).shows (shows_of_deliver hd)

theorem update_replicator_cons (n : Node) (i : Info) (infos : List Info) :
    Behavior.replicator.update n (i :: infos) =
      n.replicate i >>= fun _ => Behavior.replicator.update n infos := by
  simp [Behavior.replicator]

/-- The `infos` of the view are copied one after the other; to copy one of them leaves the others.
-/
theorem evolves_replicator (n : Node) (infos : List Info) {s : Scene}
    (h : ∀ i ∈ infos, s.tx.view.Shows (.info i)) :
    Relation.ReflTransGen (Scene.Evolves held) s
      (final (Behavior.replicator.update n infos s)) := by
  induction infos generalizing s with
  | nil => exact .refl
  | cons i infos ih =>
    obtain ⟨hi, hrest⟩ := List.forall_mem_cons.1 h
    rw [update_replicator_cons]
    refine Scene.evolves_bind (σ := Scene) (.single (.replicate n (.inr hi))) fun v s' hs =>
      ih fun j hj => ?_
    exact ((n.leaves_replicate i).of_ok hs).shows (hrest j hj)

/-- To `receiveAll` with a behavior that copies is to copy infos of the view. -/
theorem curates_receiveAll (n : Node) : Curates held (n.receiveAll Behavior.replicator) := by
  intro s
  rw [receiveAll_eq]
  refine Scene.evolves_bind (n.curates_receivePending s) fun deliveries s' h => ?_
  obtain ⟨pending, s₁, -, h⟩ := Op.of_bind_ok h
  have hshows := shows_of_mapM_deliver pending h
  refine Scene.evolves_bind (n.evolves_replicator _ fun i hi => ?_) fun _ _ _ => .refl
  obtain ⟨d, hd, rfl⟩ := List.mem_map.1 hi
  exact hshows d hd

end Node

/-- Whatever changes records does nothing but steps of `Scene.Evolves`, apart from requests that
store infos or transformations as they come, and behaviors that do something else with what they
receive. -/
theorem Change.curates {c : Change} (hrequest : ∀ r, c = .request r → r.Stores Record.Apart)
    (hreceive : ∀ copy b hb, c = .receiveAll copy b hb → b = .replicator) :
    Curates held c.op := by
  cases c with
  | request r =>
    exact .bind (.access (.of_final (hrequest r rfl) fun _ => rfl)) fun _ => .pure _
  | kill copy => exact (Node.curates_finish .dead).on copy
  | fail copy => exact (Node.curates_finish .failed).on copy
  | killVector copy => exact Vector.curates_kill.on copy
  | write copy contents => exact Info.curates_write copy contents
  | receive copy => exact Transmission.curates_receive.on copy
  | receiveAll copy b hb =>
    obtain rfl := hreceive copy b hb rfl
    exact .bind copy.curates_receiveAll fun _ => .pure _
  | addSource network copy => exact (network.curates_adopt .source).on copy
  | addSourceToAll network copy => exact network.curates_addSourceToAll.on copy
  | addSourceTo network copy agent => exact (network.curates_addSourceTo agent).on copy
  | addAgent network copy => exact network.curates_addAgent.on copy

end Propagation
