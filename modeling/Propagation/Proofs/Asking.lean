import Propagation.Proofs.Request
import Propagation.Network.Joining
import Propagation.Delivery
import Propagation.Lifecycle
import Propagation.Transmit.Plan
import Mathlib.Logic.Relation

/-!
# Operations are made of requests

Whatever an operation does to a transaction, it does by requests, one after the other, also where
it fails half way. A property of transactions that no request breaks is therefore kept by every
operation. The requests that are allowed are a parameter, so that one can also speak of operations
that leave some records alone.

## Main definitions

* `Transaction.Becomes`: what requests can make of a transaction.
* `Asks`: a computation that does nothing to the transaction but ask.
* `Behavior.Asks`: a behavior all of whose hooks do so.

## Main statements

* `Asks.bind`, `Asks.mapM` and siblings: computations that ask may be put together.
* `Node.asks_finish`, `Network.asks_addAgent` and siblings: the operations on records and networks
  ask, and store no transmission.
* `Node.asks_receiveAll`, `Node.asks_transmit`: receiving and sending ask.
* `Behavior.asks_plain` and siblings: so do the behaviors that come with the store.
-/

namespace Propagation

/-- The condition on requests that allows all of them. -/
abbrev AnyRequest : Request → Prop := fun _ => True

/-- What requests that `P` allows can make of a transaction. -/
def Transaction.Becomes (P : Request → Prop) : Transaction → Transaction → Prop :=
  Relation.ReflTransGen fun tx tx' => ∃ r, P r ∧ r.after tx = tx'

namespace Transaction.Becomes

variable {P Q : Request → Prop} {tx tx' tx'' : Transaction}

theorem refl (tx : Transaction) : tx.Becomes P tx := Relation.ReflTransGen.refl

theorem trans (h : tx.Becomes P tx') (h' : tx'.Becomes P tx'') : tx.Becomes P tx'' :=
  Relation.ReflTransGen.trans h h'

theorem after {r : Request} (h : P r) (tx : Transaction) : tx.Becomes P (r.after tx) :=
  Relation.ReflTransGen.single ⟨r, h, rfl⟩

theorem mono (hPQ : ∀ r, P r → Q r) (h : tx.Becomes P tx') : tx.Becomes Q tx' :=
  Relation.ReflTransGen.mono (fun _ _ ⟨r, hr, he⟩ => ⟨r, hPQ r hr, he⟩) _ _ h

/-- What no request for which `P` holds breaks, nothing that is made of such requests breaks. -/
theorem keeps {I : Transaction → Prop} (hI : ∀ r tx, P r → I tx → I (r.after tx))
    (h : tx.Becomes P tx') (h0 : I tx) : I tx' := by
  induction h with
  | refl => exact h0
  | tail _ hr ih =>
    obtain ⟨r, hP, rfl⟩ := hr
    exact hI r _ hP ih

theorem afterAll (rs : List Request) (tx : Transaction) :
    tx.Becomes AnyRequest (Request.afterAll rs tx) := by
  induction rs generalizing tx with
  | nil => exact .refl tx
  | cons r rs ih => exact (after trivial tx).trans (ih _)

end Transaction.Becomes

/-- States of computations that involve a transaction. -/
class Involves (σ : Type) where
  transaction : σ → Transaction

instance : Involves Transaction := ⟨id⟩

instance : Involves Scene := ⟨Scene.tx⟩

instance {ρ : Type} : Involves (Holder ρ) := ⟨fun h => h.scene.tx⟩

open Involves (transaction)

variable {P Q : Request → Prop} {σ ρ α β : Type}

/-- Wherever the computation starts, requests that `P` allows lead to where it ends. -/
def Asks [Involves σ] (P : Request → Prop) (a : EStateM Error σ α) : Prop :=
  ∀ s, (transaction s).Becomes P (transaction (final (a s)))

namespace Asks

/-! ## Putting computations together -/

section Combinators

variable [Involves σ]

theorem mono {a : EStateM Error σ α} (hPQ : ∀ r, P r → Q r) (h : Asks P a) : Asks Q a :=
  fun s => (h s).mono hPQ

/-- Where `a` succeeds, the transaction becomes what requests for which `P` holds make of it. -/
theorem of_ok {a : EStateM Error σ α} (h : Asks P a) {s s' : σ} {v : α} (hs : a s = .ok v s') :
    (transaction s).Becomes P (transaction s') := by
  have hbecomes := h s
  rw [hs] at hbecomes
  exact hbecomes

theorem pure (v : α) : Asks P (Pure.pure v : EStateM Error σ α) := fun _ => .refl _

theorem throw (e : Error) : Asks P (MonadExcept.throw e : EStateM Error σ α) := fun _ => .refl _

theorem ofExcept (r : Except Error α) : Asks P (MonadExcept.ofExcept r : EStateM Error σ α) := by
  cases r with
  | error e => exact throw e
  | ok v => exact pure v

theorem bind {a : EStateM Error σ α} {f : α → EStateM Error σ β} (ha : Asks P a)
    (hf : ∀ v, Asks P (f v)) : Asks P (a >>= f) := by
  intro s
  have h := ha s
  change (transaction s).Becomes P (transaction (final (EStateM.bind a f s)))
  rw [EStateM.bind]
  cases hs : a s with
  | ok v s' =>
    rw [hs] at h
    exact h.trans (hf v s')
  | error e s' =>
    rw [hs] at h
    exact h

theorem tryCatch {a : EStateM Error σ α} {f : Error → EStateM Error σ α} (ha : Asks P a)
    (hf : ∀ e, Asks P (f e)) : Asks P (MonadExcept.tryCatch a f) := by
  intro s
  have h := ha s
  rw [Op.tryCatch_apply]
  cases hs : a s with
  | ok v s' =>
    rw [hs] at h
    exact h
  | error e s' =>
    rw [hs] at h
    exact h.trans (hf e s')

theorem mapM {f : α → EStateM Error σ β} (hf : ∀ v, Asks P (f v)) (l : List α) :
    Asks P (l.mapM f) := by
  induction l with
  | nil => exact pure []
  | cons v l ih =>
    rw [List.mapM_cons]
    exact (hf v).bind fun _ => ih.bind fun _ => pure _

theorem foldlM {f : β → α → EStateM Error σ β} (hf : ∀ b v, Asks P (f b v)) (l : List α) (b : β) :
    Asks P (l.foldlM f b) := by
  induction l generalizing b with
  | nil => exact pure b
  | cons v l ih =>
    rw [List.foldlM_cons]
    exact (hf b v).bind fun _ => ih _

theorem forM {f : α → EStateM Error σ PUnit} (hf : ∀ v, Asks P (f v)) (l : List α) :
    Asks P (l.forM f) := by
  induction l with
  | nil => exact pure _
  | cons v l ih => exact (hf v).bind fun _ => ih

end Combinators

/-! ## Lifting -/

theorem access {a : Access α} (h : Asks P a) : Asks P (liftM a : Op α) := by
  intro s
  have := h s.tx
  change s.tx.Becomes P (final (Op.access a s)).tx
  rw [Op.access]
  cases ha : a s.tx <;> rw [ha] at this <;> exact this

theorem minting (a : Minting α) : Asks P (liftM a : Op α) := fun _ => .refl _

/-- What follows the use of the mint by `a` may rely on what the mint gives out. -/
theorem bind_minting {a : Minting α} {f : α → Op β} (h : ∀ m, Asks P (f (a m).1)) :
    Asks P ((liftM a : Op α) >>= f) := fun s => h s.mint { s with mint := (a s.mint).2 }

theorem op {a : Op α} (h : Asks P a) : Asks P (liftM a : Holding ρ α) := by
  intro s
  have := h s.scene
  change s.scene.tx.Becomes P (final (Holding.op a s)).scene.tx
  rw [Holding.op]
  cases ha : a s.scene <;> rw [ha] at this <;> exact this

theorem copy : Asks P (Holding.copy : Holding ρ ρ) := fun _ => .refl _

theorem refresh (r : ρ) : Asks P (Holding.refresh r : Holding ρ Unit) := fun _ => .refl _

/-! ## Accesses -/

theorem of_final {a : Access α} {r : Request} (hP : P r) (h : ∀ tx, final (a tx) = r.after tx) :
    Asks P a := by
  intro tx
  change tx.Becomes P (final (a tx))
  rw [h]
  exact .after hP tx

theorem insert {r : Record} (h : P (.insert r)) : Asks P (Access.insert r) := by
  refine of_final h fun tx => ?_
  rw [Request.after, Request.perform]
  simp only [Bind.bind, EStateM.bind]
  cases Access.insert r tx <;> rfl

theorem revise {r : Revision} (h : P (.revise r)) : Asks P (Access.revise r) := by
  refine of_final h fun tx => ?_
  rw [Request.after, Request.perform]
  simp only [Bind.bind, EStateM.bind]
  cases Access.revise r tx <;> rfl

theorem require {k : Key} (h : P (.find k)) (f : Tables → Option α) :
    Asks P (Access.require k f) := by
  refine of_final h fun tx => ?_
  rw [Access.require_apply]
  cases f tx.view <;> rfl

theorem nodes {q : NodeQuery} (h : P (.nodes q)) : Asks P (Access.nodes q) :=
  of_final h fun _ => rfl

theorem vectors {q : VectorQuery} (h : P (.vectors q)) : Asks P (Access.vectors q) := by
  refine of_final h fun tx => ?_
  rw [Access.vectors_apply, Request.after_of_ok (Request.check_of_stored?_none rfl tx)]
  rfl

theorem countVectors {q : VectorQuery} (h : P (.vectors q)) : Asks P (Access.countVectors q) :=
  (vectors h).bind fun _ => pure _

theorem infos {q : InfoQuery} (h : P (.infos q)) : Asks P (Access.infos q) :=
  of_final h fun _ => rfl

theorem transmissions {q : TransmissionQuery} (h : P (.transmissions q)) :
    Asks P (Access.transmissions q) := by
  refine of_final h fun tx => ?_
  rw [Access.transmissions_apply, Request.after_of_ok (Request.check_of_stored?_none rfl tx)]
  rfl

end Asks

/-- Whether a request asks to store a transmission. -/
def Request.delivers (r : Request) : Bool :=
  match r.stored? with
  | some (.transmission _) => true
  | _ => false

section Operations

/-! ## Operations on records

None of these stores a transmission. -/

variable (hP : ∀ r : Request, r.delivers = false → P r)
include hP

theorem Node.asks_create (kind : NodeKind) : Asks P (create kind) := by
  refine .bind (.minting _) fun node => ?_
  exact .access (.bind (.insert (hP _ rfl)) fun _ => .pure _)

theorem Node.asks_finish (target : NodeStatus) : Asks P (finish target) := by
  refine .bind .copy fun node => .bind (.op (.access (.require (hP _ rfl) _))) fun stored => ?_
  refine .bind (.op (.minting _)) fun now => .bind (.ofExcept _) fun moved => ?_
  cases moved with
  | some n => exact .bind (.op (.access (.revise (hP _ rfl)))) fun _ => .refresh n
  | none => exact .refresh stored

theorem Node.asks_connect (origin destination : NodeId) : Asks P (connect origin destination) := by
  refine .bind (.minting _) fun v => ?_
  exact .bind (.access (.insert (hP _ rfl))) fun _ => .pure _

theorem Vector.asks_kill : Asks P Vector.kill := by
  refine .bind .copy fun v => .bind (.op (.access (.require (hP _ rfl) _))) fun stored => ?_
  refine .bind (.op (.minting _)) fun now => ?_
  cases stored.markDead now with
  | some v => exact .bind (.op (.access (.revise (hP _ rfl)))) fun _ => .refresh v
  | none => exact .refresh stored

theorem Info.asks_create (origin : NodeId) (infoType contents : String) :
    Asks P (Info.create origin infoType contents) := by
  refine .bind (.minting _) fun i => ?_
  exact .access (.bind (.insert (hP _ rfl)) fun _ => .pure _)

theorem Info.asks_write (contents : String) : Asks P (Info.write contents) := by
  refine .bind .copy fun i => .bind (.op (.access (.require (hP _ rfl) _))) fun stored => ?_
  refine .bind (.ofExcept _) fun written => ?_
  exact .bind (.op (.access (.revise (hP _ rfl)))) fun _ => .refresh written

omit hP in
/-- To `replicate` an info is to store an info and a transformation. -/
theorem Node.asks_replicate_of_insert (hinfo : ∀ i, P (.insert (.info i)))
    (htransformation : ∀ t, P (.insert (.transformation t))) (n : Node) (infoIn : Info) :
    Asks P (n.replicate infoIn) := by
  refine .bind (.minting _) fun i => ?_
  refine .bind (.access (.bind (.insert (hinfo _)) fun _ => .pure _)) fun infoOut => ?_
  refine .bind (.bind (.minting _) fun t => ?_) fun t => .pure _
  exact .bind (.access (.insert (htransformation _))) fun _ => .pure _

theorem Node.asks_replicate (n : Node) (infoIn : Info) : Asks P (n.replicate infoIn) :=
  n.asks_replicate_of_insert (fun _ => hP _ rfl) (fun _ => hP _ rfl) infoIn

/-! ## Networks -/

namespace Network

variable (network : Network)

theorem asks_adopt (role : NodeRole) : Asks P (network.adopt role) := by
  refine .bind .copy fun node => ?_
  split
  · exact .bind (.throw _) fun _ => .bind (.op (.access (.require (hP _ rfl) _))) fun stored =>
      .bind (.op (.access (.revise (hP _ rfl)))) fun _ => .refresh _
  · exact .bind (.op (.access (.require (hP _ rfl) _))) fun stored =>
      .bind (.op (.access (.revise (hP _ rfl)))) fun _ => .refresh _

theorem asks_wire (ends : List (NodeId × NodeId)) : Asks P (wire ends) :=
  .mapM (fun _ => Node.asks_connect hP _ _) _

theorem asks_agents : Asks P network.agents := .nodes (hP _ rfl)

theorem asks_addSource : Asks P network.addSource := network.asks_adopt hP .source

theorem asks_addSourceToAll : Asks P network.addSourceToAll := by
  refine .bind (network.asks_adopt hP .source) fun _ => ?_
  refine .bind (.op (.access (network.asks_agents hP))) fun agents => .bind .copy fun source => ?_
  exact .op (asks_wire hP _)

theorem asks_addSourceTo (agent : NodeId) : Asks P (network.addSourceTo agent) := by
  refine .bind (network.asks_adopt hP .source) fun _ => .bind .copy fun source => ?_
  exact .op (asks_wire hP _)

theorem asks_addAgent : Asks P network.addAgent := by
  refine .bind (.op (.access (network.asks_agents hP))) fun earlier => ?_
  refine .bind (network.asks_adopt hP .agent) fun _ => .bind .copy fun agent => ?_
  exact .op (asks_wire hP _)

end Network

end Operations

theorem Transmission.asks_receive (h : ∀ m, P (.revise (.transmission m))) :
    Asks P Transmission.receive := by
  refine .bind (.op (.minting _)) fun now => .bind .copy fun t => ?_
  refine .bind (.refresh _) fun _ => .bind .copy fun t' => ?_
  exact .op (.access (.revise (h _)))

/-! ## Sending and receiving -/

/-- All hooks of the behavior `b` do nothing but ask for what `P` allows. -/
structure Behavior.Asks (P : Request → Prop) (b : Behavior) : Prop where
  content : ∀ n, Propagation.Asks P (b.content n)
  recipients : ∀ n, Propagation.Asks P (b.recipients n)
  update : ∀ n infos, Propagation.Asks P (b.update n infos)
  createInformation : ∀ n, Propagation.Asks P (b.createInformation n)

namespace Behavior

section Hooks

variable (hP : ∀ r : Request, r.delivers = false → P r)

theorem asks_plain : plain.Asks P where
  content _ := .pure _
  recipients _ := .pure _
  update _ _ := .throw _
  createInformation _ := .throw _

include hP

theorem asks_replicator : replicator.Asks P where
  content _ := .pure _
  recipients _ := .pure _
  update n infos := .forM (fun i => .bind (n.asks_replicate hP i) fun _ => .pure _) infos
  createInformation _ := .throw _

theorem asks_constantSource (infoType contents : String) :
    (constantSource infoType contents).Asks P where
  content n := .bind (Info.asks_create hP n.id infoType contents) fun _ => .pure _
  recipients _ := .pure _
  update _ _ := .throw _
  createInformation n := Info.asks_create hP n.id infoType contents

end Hooks

end Behavior

/-- To `deliver` a transmission is to revise it and to look up its info. -/
theorem Node.asks_deliver_of_revise (hrevise : ∀ m, P (.revise (.transmission m)))
    (hfind : ∀ k, P (.find k)) (t : Transmission) : Asks P (deliver t) := by
  refine .bind (.minting _) fun now => .bind (.access (.revise (hrevise _))) fun _ => ?_
  exact .bind (.access (.require (hfind _) _)) fun _ => .pure _

theorem Node.asks_deliver (t : Transmission) : Asks AnyRequest (deliver t) :=
  asks_deliver_of_revise (fun _ => trivial) (fun _ => trivial) t

theorem Node.asks_receivePending (n : Node) : Asks AnyRequest n.receivePending := by
  refine .bind (.access (.transmissions trivial)) fun pending => ?_
  exact .mapM asks_deliver pending

theorem Node.asks_receiveAll (n : Node) {b : Behavior} (hb : b.Asks AnyRequest) :
    Asks AnyRequest (n.receiveAll b) :=
  .bind n.asks_receivePending fun deliveries => .bind (hb.update n _) fun _ => .pure deliveries

namespace Node

section Transmit

variable (hread : ∀ r : Request, r.stored? = none → P r)
include hread

theorem asks_resolveContent (n : Node) (work : List Content) (found : List Info) :
    Asks P (n.resolveContent work found) := by
  induction work, found using Node.resolveContent.induct with
  | case1 found => rw [resolveContent]; exact .pure found
  | case2 found i rest ih =>
    rw [resolveContent]
    exact .bind (.ofExcept _) fun found => ih found
  | case3 found f rest ih =>
    rw [resolveContent]
    refine .bind (.infos (hread _ rfl)) fun authored => ?_
    exact .bind (.ofExcept _) fun found => ih found
  | case4 found items rest ih => rw [resolveContent]; exact ih

theorem asks_takeRecipient (n : Node) (found : List Node) (m : Node) :
    Asks P (n.takeRecipient found m) := by
  refine .bind (.bind (.countVectors (hread _ rfl)) fun _ => .pure _) fun joined => ?_
  split
  · exact .pure _
  · exact .throw _

theorem asks_neighbours (side : Side) (status : Option VectorStatus) (f : NodeFilter) (n : Node) :
    Asks P (n.neighbours side status f) := by
  refine .bind (.vectors (hread _ rfl)) fun vectors => ?_
  exact .bind (.mapM (fun _ => .require (hread _ rfl) _) _) fun _ => .pure _

theorem asks_resolveRecipients (n : Node) (work : List Recipients) (found : List Node) :
    Asks P (n.resolveRecipients work found) := by
  induction work, found using Node.resolveRecipients.induct with
  | case1 found => rw [resolveRecipients]; exact .pure found
  | case2 found m rest ih =>
    rw [resolveRecipients]
    exact .bind (n.asks_takeRecipient hread found m) fun found => ih found
  | case3 found f rest ih =>
    rw [resolveRecipients]
    refine .bind (n.asks_neighbours hread .outgoing (some .alive) f) fun live => ?_
    exact .bind (.foldlM (n.asks_takeRecipient hread) live found) fun found => ih found
  | case4 found items rest ih => rw [resolveRecipients]; exact ih

theorem asks_someContent (n : Node) (c : Content) : Asks P (n.someContent c) := by
  refine .bind (n.asks_resolveContent hread [c] []) fun infos => ?_
  split
  · exact .throw _
  · exact .pure _

theorem asks_someRecipients (n : Node) (r : Recipients) : Asks P (n.someRecipients r) := by
  refine .bind (n.asks_resolveRecipients hread [r] []) fun nodes => ?_
  split
  · exact .throw _
  · exact .pure _

variable {b : Behavior} (hb : b.Asks P)
include hb

theorem asks_planRecipients (n : Node) (r : Option Recipients) :
    Asks P (n.planRecipients b r) := by
  cases r with
  | some r => exact .access (n.asks_someRecipients hread r)
  | none =>
    refine .bind (hb.recipients n) fun r => ?_
    cases r with
    | some r => exact .access (n.asks_someRecipients hread r)
    | none => exact .throw _

theorem asks_plan (n : Node) (c : Option Content) (r : Option Recipients) :
    Asks P (n.plan b c r) := by
  cases c with
  | some c =>
    refine .bind (.access (n.asks_someContent hread c)) fun infos => ?_
    exact .bind (n.asks_planRecipients hread hb r) fun nodes => .pure _
  | none =>
    refine .bind (n.asks_planRecipients hread hb r) fun nodes => ?_
    refine .bind (hb.content n) fun c => ?_
    cases c with
    | some c => exact .bind (.access (n.asks_someContent hread c)) fun _ => .pure _
    | none => exact .throw _

omit hread hb in
/-- To `send` a pair is to store one transmission, new and pending. -/
theorem asks_send (hsend : ∀ m : Transmission, m.isPending → P (.insert (.transmission m)))
    (pair : Info × Node) : Asks P (send pair) := by
  refine .bind_minting fun m => ?_
  exact .bind (.access (.insert (hsend _ rfl))) fun _ => .pure _

/-- To `transmit` is to look around, and then to store new transmissions that are pending. -/
theorem asks_transmit (hsend : ∀ m : Transmission, m.isPending → P (.insert (.transmission m)))
    (n : Node) (c : Option Content) (r : Option Recipients) : Asks P (n.transmit b c r) :=
  .bind (n.asks_plan hread hb c r) fun pairs => .mapM (asks_send hsend) pairs

end Transmit

end Node

end Propagation
