import Propagation.Tables.Basic
import Propagation.Sorted

/-!
# Queries

A query asks for the records of one kind that agree with every field it sets. The answer is in
chronological order: by the time the record is about, and by identifier where times are equal.

## Main definitions

* `NodeQuery`, `VectorQuery`, `InfoQuery`, `TransmissionQuery`, `TransformationQuery`.
* `Tables.selectNodes` and its siblings: the answer to a query.

A query for vectors that names an end goes through the index of that end.
-/

namespace Propagation

namespace Node

/-- Nodes by creation time, then by identifier. -/
def chronological : Node → Node → Ordering :=
  compareLex (compareOn creationTime) (compareOn id)

end Node

namespace Vector

/-- Vectors by creation time, then by identifier. -/
def chronological : Vector → Vector → Ordering :=
  compareLex (compareOn creationTime) (compareOn id)

end Vector

namespace Info

/-- Infos by creation time, then by identifier. -/
def chronological : Info → Info → Ordering :=
  compareLex (compareOn creationTime) (compareOn id)

end Info

namespace Transmission

/-- Transmissions by transmit time, then by identifier. -/
def chronological : Transmission → Transmission → Ordering :=
  compareLex (compareOn transmitTime) (compareOn id)

end Transmission

namespace Transformation

/-- Transformations by time, then by identifier. -/
def chronological : Transformation → Transformation → Ordering :=
  compareLex (compareOn transformTime) (compareOn id)

end Transformation

/-- The nodes that agree with every field that is set. -/
structure NodeQuery where
  network : Option NetworkId := none
  role : Option NodeRole := none
  participant : Option String := none
  /-- Nodes of these statuses are left out. -/
  excluded : List NodeStatus := []

/-- The vectors that agree with every field that is set. -/
structure VectorQuery where
  origin : Option NodeId := none
  destination : Option NodeId := none
  /-- The network of the vector's origin. -/
  network : Option NetworkId := none
  status : Option VectorStatus := none

/-- The infos that agree with every field that is set. -/
structure InfoQuery where
  origin : Option NodeId := none
  /-- Whether the answer starts with the latest info. -/
  newestFirst : Bool := false

/-- The transmissions that agree with every field that is set. -/
structure TransmissionQuery where
  info : Option InfoId := none
  /-- The origin of the info that is delivered. -/
  origin : Option NodeId := none
  destination : Option NodeId := none
  /-- Whether received transmissions are left out. -/
  pendingOnly : Bool := false

/-- The transformations that agree with every field that is set. -/
structure TransformationQuery where
  node : Option NodeId := none
  infoIn : Option InfoId := none
  infoOut : Option InfoId := none

/-- Whether node `n` agrees with the query. -/
def NodeQuery.matches (q : NodeQuery) (n : Node) : Bool :=
  q.network.all (n.network = some ·) && q.role.all (n.kind.role = ·) &&
    q.participant.all (n.participant = some ·) && !q.excluded.contains n.status

/-- Whether vector `v` agrees with the query. Its network is that of the origin as it is stored in
`t`. -/
def VectorQuery.matches (q : VectorQuery) (t : Tables) (v : Vector) : Bool :=
  q.origin.all (v.origin = ·) && q.destination.all (v.destination = ·) &&
    q.status.all (v.status = ·) &&
    q.network.all fun network => t.nodes[v.origin]?.any (·.network = some network)

/-- Whether info `i` agrees with the query. -/
def InfoQuery.matches (q : InfoQuery) (i : Info) : Bool := q.origin.all (i.origin = ·)

/-- Whether transmission `m` agrees with the query. Its origin is that of the info as it is stored
in `t`. -/
def TransmissionQuery.matches (q : TransmissionQuery) (t : Tables) (m : Transmission) : Bool :=
  q.info.all (m.info = ·) && q.destination.all (m.destination = ·) &&
    (!q.pendingOnly || m.isPending) &&
    q.origin.all fun origin => t.infos[m.info]?.any (·.origin = origin)

/-- Whether transformation `m` agrees with the query. -/
def TransformationQuery.matches (q : TransformationQuery) (m : Transformation) : Bool :=
  q.node.all (m.node = ·) && q.infoIn.all (m.infoIn = ·) && q.infoOut.all (m.infoOut = ·)

namespace Tables

/-- The answer to the query `q`, in the order of `Node.chronological`. -/
def selectNodes (t : Tables) (q : NodeQuery) : List Node :=
  sort Node.chronological ((rows t.nodes).filter q.matches)

/-- The vectors among which the answer to a query is looked for: those of the index of the
origin if it is set, else of the destination, else all. -/
def vectorIds (t : Tables) (q : VectorQuery) : List VectorId :=
  match q.origin, q.destination with
  | some origin, _ => t.outgoing.getD origin []
  | none, some destination => t.incoming.getD destination []
  | none, none => t.vectors.keys

/-- The answer to the query `q`, in the order of `Vector.chronological`. -/
def selectVectors (t : Tables) (q : VectorQuery) : List Vector :=
  sort Vector.chronological (((t.vectorIds q).filterMap (t.vectors[·]?)).filter (q.matches t))

/-- The answer to the query `q`, in the order of `Info.chronological`. -/
def selectInfos (t : Tables) (q : InfoQuery) : List Info :=
  let found := sort Info.chronological ((rows t.infos).filter q.matches)
  if q.newestFirst then found.reverse else found

/-- The answer to the query `q`, in the order of `Transmission.chronological`. -/
def selectTransmissions (t : Tables) (q : TransmissionQuery) : List Transmission :=
  sort Transmission.chronological ((rows t.transmissions).filter (q.matches t))

/-- The answer to the query `q`, in the order of `Transformation.chronological`. -/
def selectTransformations (t : Tables) (q : TransformationQuery) : List Transformation :=
  sort Transformation.chronological ((rows t.transformations).filter q.matches)

end Tables

end Propagation
