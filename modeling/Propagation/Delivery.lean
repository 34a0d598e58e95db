import Propagation.Behavior

/-!
# Receiving

A transmission waits until its destination receives it. One that somebody holds a copy of can be
received by itself. A node receives all that waits for it at once, and then hands the infos to its
behavior.

## Main definitions

* `Transmission.receive`: mark a stored transmission as received.
* `Transmission.origin`: the node that a transmission comes from.
* `Transmission.vector`: the vector along which it came.
* `Node.incomingTransmissions`, `Node.outgoingTransmissions`, `Node.pendingTransmissions`.
* `Delivery`: a received transmission with its info.
* `Node.receivePending`: receive all pending transmissions.
* `Node.receiveAllWith`: the same, and hand their infos to whoever takes them up.
* `Node.receiveAll`: hand them to a behavior.
-/

namespace Propagation

namespace Transmission

/-- Mark the copy as received, and store it. -/
def receive : Holding Transmission Unit := do
  let now ← Minting.now
  Holding.refresh ((← Holding.copy).markReceived now)
  Access.revise (.transmission (← Holding.copy))

/-- The node that a transmission comes from: the origin of its `info`. -/
def origin (t : Transmission) : Access NodeId := return (← Access.requireInfo t.info).origin

/-- The vector from the origin of a transmission to its destination: the earliest one that is alive,
or else the earliest one. -/
def vector (t : Transmission) : Access Vector := do
  let origin ← t.origin
  let vectors ← Access.vectors { origin := some origin, destination := some t.destination }
  match (vectors.find? (·.isAlive)).or vectors.head? with
  | some v => return v
  | none => throw (.noVector origin t.destination)

end Transmission

/-- A received transmission with the info that it brought. -/
structure Delivery where
  transmission : Transmission
  info : Info

namespace Node

/-- The transmissions to node `n`. -/
def incomingTransmissions (n : Node) : Access (List Transmission) :=
  Access.transmissions { destination := some n.id }

/-- The transmissions of the infos that node `n` authored. -/
def outgoingTransmissions (n : Node) : Access (List Transmission) :=
  Access.transmissions { origin := some n.id }

/-- The transmissions to node `n` that are pending. -/
def pendingTransmissions (n : Node) : Access (List Transmission) :=
  Access.transmissions { destination := some n.id, pendingOnly := true }

/-- Mark `t` as received, store it, and look up its info. -/
def deliver (t : Transmission) : Op Delivery := do
  let transmission := t.markReceived (← Minting.now)
  Access.revise (.transmission transmission)
  let info ← Access.requireInfo t.info
  return { transmission, info }

/-- Receive all pending transmissions, in the order in which they were sent. -/
def receivePending (n : Node) : Op (List Delivery) := do
  let pending ← n.pendingTransmissions
  pending.mapM deliver

/-- Receive all pending transmissions, and then let `update` take up their infos. The owner of
`update` may keep a state of its own besides the scene, and so the monad `m` is a parameter. -/
def receiveAllWith {m : Type → Type} [Monad m] [MonadLiftT Op m] (n : Node)
    (update : Node → List Info → m Unit) : m (List Delivery) := do
  let deliveries ← n.receivePending
  update n (deliveries.map (·.info))
  return deliveries

/-- Receive all pending transmissions, and then let the behavior `b` take up their infos. -/
def receiveAll (n : Node) (b : Behavior) : Op (List Delivery) := n.receiveAllWith b.update

theorem receiveAll_eq (n : Node) (b : Behavior) : n.receiveAll b = do
    let deliveries ← n.receivePending
    b.update n (deliveries.map (·.info))
    return deliveries := rfl

end Node

end Propagation
