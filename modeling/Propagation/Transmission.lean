import Propagation.Id.Text
import Propagation.Timestamp

/-!
# Transmissions

A transmission is the delivery of one info to one node. It comes from the origin of its info,
and is pending until it is received.

## Main definitions

* `Transmission`: the record of a transmission.
-/

namespace Propagation

/-- The record of a transmission. -/
structure Transmission where
  id : TransmissionId
  /-- The info that is delivered. -/
  info : InfoId
  /-- The node that it is delivered to. -/
  destination : NodeId
  transmitTime : Timestamp
  /-- When it was received. -/
  receiveTime : Option Timestamp := none
  deriving DecidableEq

namespace Transmission

/-- Whether the transmission has no `receiveTime`. -/
def isPending (t : Transmission) : Bool := t.receiveTime.isNone

/-- The transmission received at `now`, whenever it was received before. -/
def markReceived (now : Timestamp) (t : Transmission) : Transmission :=
  { t with receiveTime := some now }

/-- What messages call the transmission. -/
def label (t : Transmission) : String := "Transmission-" ++ t.id.short

end Transmission

end Propagation
