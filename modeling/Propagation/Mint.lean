import Propagation.Clock
import Propagation.Id.Source
import Propagation.Record

/-!
# The mint

New records get an identifier that nobody has and the time at which they are made. Both come
from the mint, the one clock and the one source of identifiers of an experiment. The mint goes
on whether or not the record is stored in the end.

## Main definitions

* `Mint`: a clock and a source of identifiers.
* `Minting`: computations that use the mint.
* `Minting.now`, `Minting.id`: take a time, take an identifier.
* `Network.fresh`, `Node.fresh` and their siblings: a new record of each kind.
-/

namespace Propagation

/-- The clock and the source of identifiers of an experiment. -/
structure Mint where
  clock : Clock
  ids : IdSource

/-- A computation that uses the mint. -/
abbrev Minting := StateM Mint

namespace Minting

/-- Take a time from the clock. -/
def now : Minting Timestamp := modifyGet fun m =>
  let (t, clock) := m.clock.now
  (t, { m with clock })

/-- Take an identifier from the source. -/
def id (e : Entity) : Minting (Id e) := modifyGet fun m =>
  let (i, ids) := m.ids.next e
  (i, { m with ids })

end Minting

/-- A new network. -/
def Network.fresh (kind : NetworkKind) : Minting Network := do
  let creationTime ← Minting.now
  return { id := ← Minting.id .network, kind, creationTime }

/-- A new node, alive and in no network. -/
def Node.fresh (kind : NodeKind) : Minting Node := do
  let creationTime ← Minting.now
  return { id := ← Minting.id .node, kind, creationTime }

/-- A new vector, alive. -/
def Vector.fresh (origin destination : NodeId) : Minting Vector := do
  let creationTime ← Minting.now
  return { id := ← Minting.id .vector, origin, destination, creationTime }

/-- A new info, with nothing written in it. -/
def Info.fresh (origin : NodeId) (infoType : String) : Minting Info := do
  let creationTime ← Minting.now
  return { id := ← Minting.id .info, infoType, origin, creationTime }

/-- A new transmission, pending. -/
def Transmission.fresh (info : InfoId) (destination : NodeId) : Minting Transmission := do
  let transmitTime ← Minting.now
  return { id := ← Minting.id .transmission, info, destination, transmitTime }

/-- A new transformation. -/
def Transformation.fresh (node : NodeId) (infoIn infoOut : InfoId) (transformationType : String) :
    Minting Transformation := do
  let transformTime ← Minting.now
  return { id := ← Minting.id .transformation, transformationType, node, infoIn, infoOut,
           transformTime }

end Propagation
