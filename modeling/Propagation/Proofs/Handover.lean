import Propagation.Proofs.Integrity

/-!
# Handing over

When a node receives, `Behavior.update` is called with the infos that came. What it is called with
is noted here on the spot: a noted program is the program itself, but that every `update` by which
`Node.receiveAll` hands over something first writes down its arguments, and which transmissions have
just been received. The note is kept beside the scene, where the program can not see it.

## Main definitions

* `Handover`: a call of `Behavior.update` by `Node.receiveAll`.
* `Node.receiveAllNoted`: receive everything, and note what is handed over.
* `Notes`: a program and its noted run.

## Main statements

* `Notes.forget`: to note changes neither the answer of a program nor its scene.
* `Notes.keeps`: what sending keeps, and every single hand-over, a noted program keeps.
* `Handover.made_of_receivePending`: in a transaction that may write, what is handed over is what
  was received.
-/

namespace Propagation

/-! ## The calls -/

/-- A call of `Behavior.update`, by which `Node.receiveAll` hands over what was received. -/
structure Handover where
  /-- The node that receives. -/
  node : Node
  /-- What had waited for the node, as it is stored when the call is made. -/
  received : List Transmission
  /-- What the call is given. -/
  infos : List Info

namespace Handover

/-- The infos in `c`, each with the transmission on behalf of which it is handed over. -/
def deliveries (c : Handover) : List Delivery := List.zipWith Delivery.mk c.received c.infos

/-- Whether the call `c` hands over the info of the transmission `t` on behalf of it. -/
def passes (t : Transmission) (c : Handover) : Bool :=
  c.deliveries.any fun d => d.transmission.id = t.id && d.info.id = t.info

/-- The call `c` hands over what its node received, and nothing else: one info on behalf of each
transmission, in order. -/
def Faithful (c : Handover) : Prop :=
  List.Forall₂ (fun t i => t.destination = c.node.id ∧ i.id = t.info) c.received c.infos

theorem passes_iff {c : Handover} {t : Transmission} :
    c.passes t ↔ ∃ d ∈ c.deliveries, d.transmission.id = t.id ∧ d.info.id = t.info := by
  simp [passes]

/-- The call that hands over `infos` to the node `n`, in a scene in which `waiting` has just been
received. -/
def made (waiting : List Transmission) (n : Node) (infos : List Info) (scene : Scene) :
    Handover where
  node := n
  received := waiting.filterMap fun t => scene.tx.view.transmissions[t.id]?
  infos := infos

/-- Note that the node `n` is handed `infos`, after `waiting` was received. -/
def note (waiting : List Transmission) (n : Node) (infos : List Info) :
    Holding (List Handover) Unit :=
  modify fun h => { h with copy := h.copy ++ [made waiting n infos h.scene] }

end Handover

/-- Receive all pending transmissions, and let `update` take up their infos once it is noted that it
does. -/
def Node.receiveAllNoted (n : Node) (update : Node → List Info → Holding (List Handover) Unit) :
    Holding (List Handover) (List Delivery) := do
  let waiting := (← get).scene.tx.view.waiting n
  n.receiveAllWith fun n infos => do
    Handover.note waiting n infos
    update n infos

/-- A program in which transmissions are only sent and received, and its noted run. A behavior may
itself receive while it takes up what it got. -/
inductive Notes : {β : Type} → Op β → Holding (List Handover) β → Prop
  | op {β : Type} {a : Op β} (ha : Asks Request.SendsOnly a) : Notes a (liftM a)
  | bind {β γ : Type} {a : Op β} {f : β → Op γ} {a' : Holding (List Handover) β}
    {f' : β → Holding (List Handover) γ} (ha : Notes a a') (hf : ∀ v, Notes (f v) (f' v)) :
    Notes (a >>= f) (a' >>= f')
  | tryCatch {β : Type} {a : Op β} {f : Error → Op β} {a' : Holding (List Handover) β}
    {f' : Error → Holding (List Handover) β} (ha : Notes a a') (hf : ∀ e, Notes (f e) (f' e)) :
    Notes (tryCatch a f) (tryCatch a' f')
  | receiveAll (n : Node) {b : Behavior} {update : Node → List Info → Holding (List Handover) Unit}
    (hb : ∀ m infos, Notes (b.update m infos) (update m infos)) :
    Notes (n.receiveAll b) (n.receiveAllNoted update)

/-! ## To note is not to interfere -/

/-- What is left of a run if the copy is forgotten. -/
def Holding.forget {ρ α : Type} : EStateM.Result Error (Holder ρ) α → EStateM.Result Error Scene α
  | .ok v h => .ok v h.scene
  | .error e h => .error e h.scene

namespace Holding

variable {ρ α β : Type}

theorem forget_op (a : Op α) (h : Holder ρ) :
    forget ((liftM a : Holding ρ α) h) = a h.scene := by
  change forget (op a h) = _
  rw [op]
  cases a h.scene <;> rfl

theorem final_forget (r : EStateM.Result Error (Holder ρ) α) :
    final (forget r) = (final r).scene := by
  cases r <;> rfl

theorem forget_bind {a : Op α} {f : α → Op β} {a' : Holding ρ α} {f' : α → Holding ρ β}
    (ha : ∀ h, forget (a' h) = a h.scene) (hf : ∀ v h, forget (f' v h) = f v h.scene)
    (h : Holder ρ) : forget ((a' >>= f') h) = (a >>= f) h.scene := by
  change forget (EStateM.bind a' f' h) = EStateM.bind a f h.scene
  rw [EStateM.bind, EStateM.bind, ← ha h]
  cases a' h with
  | ok v h' => exact hf v h'
  | error e h' => rfl

theorem forget_tryCatch {a : Op α} {f : Error → Op α} {a' : Holding ρ α}
    {f' : Error → Holding ρ α} (ha : ∀ h, forget (a' h) = a h.scene)
    (hf : ∀ e h, forget (f' e h) = f e h.scene) (h : Holder ρ) :
    forget (tryCatch a' f' h) = tryCatch a f h.scene := by
  rw [Op.tryCatch_apply, Op.tryCatch_apply, ← ha h]
  cases a' h with
  | ok v h' => rfl
  | error e h' => exact hf e h'

end Holding

namespace Notes

variable {β : Type} {op : Op β} {noted : Holding (List Handover) β}

/-- To note what is handed over changes neither what `op` answers nor what it does. The induction is
on how the program is put together. -/
theorem forget (hn : Notes op noted) (h : Holder (List Handover)) :
    Holding.forget (noted h) = op h.scene := by
  induction hn generalizing h with
  | op ha => exact Holding.forget_op _ h
  | bind _ _ iha ihf => exact Holding.forget_bind iha ihf h
  | tryCatch _ _ iha ihf => exact Holding.forget_tryCatch iha ihf h
  | receiveAll n _ ih =>
    rw [Node.receiveAll_eq]
    refine Holding.forget_bind (Holding.forget_op _) (fun deliveries => ?_) h
    exact Holding.forget_bind (fun _ => ih n _ _) fun _ _ => rfl

theorem scene_final (hn : Notes op noted) (h : Holder (List Handover)) :
    (final (noted h)).scene = final (op h.scene) := by
  rw [← Holding.final_forget, hn.forget]

/-- A program `op` that has a noted run works by requests. -/
theorem asks (hn : Notes op noted) : Asks AnyRequest op := by
  induction hn with
  | op ha => exact ha.mono fun _ _ => trivial
  | bind _ _ iha ihf => exact .bind iha ihf
  | tryCatch _ _ iha ihf => exact .tryCatch iha ihf
  | receiveAll n _ ih =>
    exact .bind n.asks_receivePending fun deliveries => .bind (ih n _) fun _ => .pure _

end Notes

/-! ## What a noted program keeps -/

/-- To receive everything is to receive what waits, to note that it is handed over, and to let the
behavior go on from there. -/
theorem Node.final_receiveAllNoted (n : Node)
    (update : Node → List Info → Holding (List Handover) Unit) {h : Holder (List Handover)}
    {deliveries : List Delivery} {scene : Scene}
    (hrun : n.receivePending h.scene = .ok deliveries scene) :
    let infos := deliveries.map (·.info)
    final (n.receiveAllNoted update h) = final (update n infos
      ⟨h.copy ++ [.made (h.scene.tx.view.waiting n) n infos scene], scene⟩) := by
  intro infos
  have hlift : (liftM n.receivePending : Holding (List Handover) _) h =
      .ok deliveries { h with scene } := by
    change Holding.op n.receivePending h = _
    rw [Holding.op, hrun]
  have hwhole : n.receiveAllNoted update h = (update n infos >>= fun _ => pure deliveries)
      ⟨h.copy ++ [.made (h.scene.tx.view.waiting n) n infos scene], scene⟩ := Op.bind_of_ok hlift
  rw [hwhole, Op.final_map]

/-- The scene after what waits for the node `n` was received, with a note of the hand-over. -/
def Handover.Received (n : Node) (h h' : Holder (List Handover)) : Prop :=
  ∃ deliveries scene, n.receivePending h.scene = .ok deliveries scene ∧
    h' = ⟨h.copy ++ [.made (h.scene.tx.view.waiting n) n (deliveries.map (·.info)) scene], scene⟩

namespace Handover

/-- What waited is received by requests. -/
theorem Received.becomes {n : Node} {h h' : Holder (List Handover)} (hr : Received n h h') :
    h.scene.tx.Becomes AnyRequest h'.scene.tx := by
  obtain ⟨deliveries, scene, hrun, rfl⟩ := hr
  exact n.asks_receivePending.of_ok hrun

section Made

variable {n : Node} {tx : Transaction} {mint : Mint} {deliveries : List Delivery} {scene : Scene}

/-- What waited is found again where it is stored after it was delivered. -/
theorem filterMap_stored {waiting : List Transmission} {t : Tables}
    (hids : List.Forall₂ (fun m d => d.transmission.id = m.id) waiting deliveries)
    (hstored : ∀ d ∈ deliveries, t.transmissions[d.transmission.id]? = some d.transmission) :
    waiting.filterMap (fun m => t.transmissions[m.id]?) = deliveries.map (·.transmission) := by
  induction hids with
  | nil => rfl
  | @cons m d waiting deliveries hid _ ih =>
    obtain ⟨hd, hstored⟩ := List.forall_mem_cons.1 hstored
    rw [hid] at hd
    rw [List.filterMap_cons, hd, List.map_cons, ih hstored]

/-- In a transaction that may write, the call that hands over what was received is `Faithful`. -/
theorem made_of_receivePending (hkeyed : tx.view.Keyed) (hclosed : tx.view.Closed)
    (hmode : tx.mode = .readWrite) (hrun : n.receivePending { tx, mint } = .ok deliveries scene)
    (hstored : ∀ d ∈ deliveries,
      scene.tx.view.transmissions[d.transmission.id]? = some d.transmission) :
    let c := made (tx.view.waiting n) n (deliveries.map (·.info)) scene
    c.deliveries = deliveries ∧ c.Faithful := by
  intro c
  obtain ⟨_, _, hrun', hdelivers⟩ := Node.exists_receivePending hkeyed hclosed hmode n mint
  cases hrun.symm.trans hrun'
  have hids : List.Forall₂ (fun m (d : Delivery) => d.transmission.id = m.id)
      (tx.view.waiting n) deliveries :=
    hdelivers.received.imp fun m d ⟨now, hd, _⟩ => hd ▸ rfl
  have hreceived : c.received = deliveries.map (·.transmission) := filterMap_stored hids hstored
  have hinfos : c.infos = deliveries.map (·.info) := rfl
  constructor
  · rw [Handover.deliveries, hreceived, hinfos, List.zipWith_map, List.zipWith_self]
    exact List.map_id _
  · rw [Faithful, hreceived, hinfos, List.forall₂_map_left_iff, List.forall₂_map_right_iff,
      List.forall₂_same]
    intro d hd
    obtain ⟨m, hm, now, hmarked, hinfo⟩ := exists_of_forall₂ hdelivers.received hd
    obtain ⟨-, hdestination, -⟩ := (Tables.mem_waiting hkeyed).1 hm
    rw [hmarked]
    exact ⟨hdestination, Key.info.inj (hkeyed _ _ (Tables.find?_info.2 hinfo))⟩

end Made

end Handover

/-- What is kept by requests that only send, and by each hand-over, is kept by `noted`. The
induction is on how the program is put together. -/
theorem Notes.keeps {β : Type} {op : Op β} {noted : Holding (List Handover) β}
    {I : Holder (List Handover) → Prop}
    (hsend : ∀ h scene, I h → h.scene.tx.Becomes Request.SendsOnly scene.tx → I { h with scene })
    (hreceive : ∀ n h, I h → ∃ h', Handover.Received n h h' ∧ I h') (hn : Notes op noted)
    {h : Holder (List Handover)} (h0 : I h) : I (final (noted h)) := by
  induction hn generalizing h with
  | @op β a ha =>
    change I (final (Holding.op a h))
    have hbecomes := ha h.scene
    rw [Holding.op]
    cases hrun : a h.scene <;> rw [hrun] at hbecomes <;> exact hsend h _ h0 hbecomes
  | @bind β γ a f a' f' _ _ iha ihf =>
    change I (final (EStateM.bind a' f' h))
    have hfirst := iha h0
    rw [EStateM.bind]
    cases hrun : a' h with
    | ok v h' => rw [hrun] at hfirst; exact ihf v hfirst
    | error e h' => rw [hrun] at hfirst; exact hfirst
  | @tryCatch β a f a' f' _ _ iha ihf =>
    have hfirst := iha h0
    rw [Op.tryCatch_apply]
    cases hrun : a' h with
    | ok v h' => rw [hrun] at hfirst; exact hfirst
    | error e h' => rw [hrun] at hfirst; exact ihf e hfirst
  | receiveAll n _ ih =>
    obtain ⟨h', ⟨deliveries, scene, hrun, rfl⟩, hI⟩ := hreceive n h h0
    rw [n.final_receiveAllNoted _ hrun]
    exact ih n _ hI

end Propagation
