import Propagation.Json.Codec
import Propagation.Network.Membership

/-!
# Records as JSON

Identifiers are written with hyphens and times in their written form. The members of a record
stand in the order of its fields.
-/

namespace Propagation

open Json (encode decode? needed? optional?)

instance {e : Entity} : Json.Codec (Id e) where
  encode i := .str i.hyphenated
  decode?
    | .str s => Id.ofText? s
    | _ => none

instance : Json.Codec Timestamp where
  encode t := .str t.text
  decode?
    | .str s => (Timestamp.read s).toOption
    | _ => none

instance : Json.Codec TxId where
  encode i := .int i.number.toNat
  decode? j := (Json.nat? UInt64.size j).map fun n => ⟨.ofNat n⟩

/-! ## Choices -/

instance : Json.Codec NodeRole where
  encode
    | .base => .str "base"
    | .source => .str "source"
    | .agent => .str "agent"
  decode? := Json.named? [("base", .base), ("source", .source), ("agent", .agent)]

instance : Json.Codec NodeStatus where
  encode s := .str s.text
  decode? := Json.named? [("alive", .alive), ("dead", .dead), ("failed", .failed)]

instance : Json.Codec VectorStatus where
  encode
    | .alive => .str "alive"
    | .dead => .str "dead"
  decode? := Json.named? [("alive", .alive), ("dead", .dead)]

instance : Json.Codec NetworkKind where
  encode k := .str k.text
  decode? := Json.named? [("base", .base), ("chain", .chain),
    ("fully_connected", .fullyConnected), ("star", .star)]

instance : Json.Codec TxMode where
  encode
    | .readOnly => .str "ReadOnly"
    | .readWrite => .str "ReadWrite"
  decode? := Json.named? [("ReadOnly", .readOnly), ("ReadWrite", .readWrite)]

instance : Json.Codec Isolation where
  encode
    | .readCommitted => .str "ReadCommitted"
    | .serializable => .str "Serializable"
  decode? := Json.named? [("ReadCommitted", .readCommitted), ("Serializable", .serializable)]

instance : Json.Codec NodeFilter where
  encode
    | .any => .str "Any"
    | .role r => .obj [("Role", encode r)]
    | .type name => .obj [("Type", encode name)]
  decode? j :=
    match Json.choice? j with
    | some ("Any", .null) => some .any
    | some ("Role", j) => (decode? j).map .role
    | some ("Type", j) => (decode? j).map .type
    | _ => none

instance : Json.Codec InfoFilter where
  encode
    | .any => .str "Any"
    | .type name => .obj [("Type", encode name)]
  decode? j :=
    match Json.choice? j with
    | some ("Any", .null) => some .any
    | some ("Type", j) => (decode? j).map .type
    | _ => none

/-! ## Structures -/

instance : Json.Codec NodeKind where
  encode k := .obj [("role", encode k.role), ("type_name", encode k.typeName)]
  decode? j :=
    match Json.fields? ["role", "type_name"] j with
    | some [role, typeName] => do
      return { role := ← needed? role, typeName := ← needed? typeName }
    | _ => none

instance : Json.Codec Node where
  encode n := .obj [("id", encode n.id), ("kind", encode n.kind),
    ("creation_time", encode n.creationTime), ("status", encode n.status),
    ("time_of_death", encode n.timeOfDeath), ("network", encode n.network),
    ("participant", encode n.participant)]
  decode? j :=
    match Json.fields? ["id", "kind", "creation_time", "status", "time_of_death", "network",
      "participant"] j with
    | some [id, kind, creationTime, status, timeOfDeath, network, participant] => do
      return { id := ← needed? id, kind := ← needed? kind, creationTime := ← needed? creationTime,
               status := ← needed? status, timeOfDeath := ← optional? timeOfDeath,
               network := ← optional? network, participant := ← optional? participant }
    | _ => none

instance : Json.Codec Vector where
  encode v := .obj [("id", encode v.id), ("origin", encode v.origin),
    ("destination", encode v.destination), ("creation_time", encode v.creationTime),
    ("status", encode v.status), ("time_of_death", encode v.timeOfDeath)]
  decode? j :=
    match Json.fields? ["id", "origin", "destination", "creation_time", "status",
      "time_of_death"] j with
    | some [id, origin, destination, creationTime, status, timeOfDeath] => do
      return { id := ← needed? id, origin := ← needed? origin,
               destination := ← needed? destination, creationTime := ← needed? creationTime,
               status := ← needed? status, timeOfDeath := ← optional? timeOfDeath }
    | _ => none

instance : Json.Codec Info where
  encode i := .obj [("id", encode i.id), ("info_type", encode i.infoType),
    ("origin", encode i.origin), ("creation_time", encode i.creationTime),
    ("contents", encode i.contents)]
  decode? j :=
    match Json.fields? ["id", "info_type", "origin", "creation_time", "contents"] j with
    | some [id, infoType, origin, creationTime, contents] => do
      return { id := ← needed? id, infoType := ← needed? infoType, origin := ← needed? origin,
               creationTime := ← needed? creationTime, contents := ← optional? contents }
    | _ => none

instance : Json.Codec Transmission where
  encode t := .obj [("id", encode t.id), ("info", encode t.info),
    ("destination", encode t.destination), ("transmit_time", encode t.transmitTime),
    ("receive_time", encode t.receiveTime)]
  decode? j :=
    match Json.fields? ["id", "info", "destination", "transmit_time", "receive_time"] j with
    | some [id, info, destination, transmitTime, receiveTime] => do
      return { id := ← needed? id, info := ← needed? info, destination := ← needed? destination,
               transmitTime := ← needed? transmitTime, receiveTime := ← optional? receiveTime }
    | _ => none

instance : Json.Codec Transformation where
  encode t := .obj [("id", encode t.id), ("transformation_type", encode t.transformationType),
    ("node", encode t.node), ("info_in", encode t.infoIn), ("info_out", encode t.infoOut),
    ("transform_time", encode t.transformTime)]
  decode? j :=
    match Json.fields? ["id", "transformation_type", "node", "info_in", "info_out",
      "transform_time"] j with
    | some [id, transformationType, node, infoIn, infoOut, transformTime] => do
      return { id := ← needed? id, transformationType := ← needed? transformationType,
               node := ← needed? node, infoIn := ← needed? infoIn, infoOut := ← needed? infoOut,
               transformTime := ← needed? transformTime }
    | _ => none

instance : Json.Codec Network where
  encode n := .obj [("id", encode n.id), ("kind", encode n.kind),
    ("creation_time", encode n.creationTime)]
  decode? j :=
    match Json.fields? ["id", "kind", "creation_time"] j with
    | some [id, kind, creationTime] => do
      return { id := ← needed? id, kind := ← needed? kind, creationTime := ← needed? creationTime }
    | _ => none

/-- A record of whatever kind is written as itself. -/
def Record.encode : Record → Json
  | .network n => Json.encode n
  | .node n => Json.encode n
  | .vector v => Json.encode v
  | .info i => Json.encode i
  | .transmission t => Json.encode t
  | .transformation t => Json.encode t

/-- The record of kind `e` that `j` denotes. -/
def Record.decode? (e : Entity) (j : Json) : Option Record :=
  match e with
  | .network => (Json.decode? j).map .network
  | .node => (Json.decode? j).map .node
  | .vector => (Json.decode? j).map .vector
  | .info => (Json.decode? j).map .info
  | .transmission => (Json.decode? j).map .transmission
  | .transformation => (Json.decode? j).map .transformation

instance : Json.Codec Message where
  encode m := .obj [("channel", encode m.channel), ("payload", encode m.payload)]
  decode? j :=
    match Json.fields? ["channel", "payload"] j with
    | some [channel, payload] => do
      return { channel := ← needed? channel, payload := ← needed? payload }
    | _ => none

/-- The count that a member has to be: a natural number of less than `UInt64.size`. -/
def Network.Summary.count? : Option Json → Option Nat
  | some j => Json.nat? UInt64.size j
  | none => none

instance : Json.Codec Network.Summary where
  encode s := .obj [("id", encode s.id), ("kind", encode s.kind), ("agents", .int s.agents),
    ("sources", .int s.sources), ("vectors", .int s.vectors)]
  decode? j :=
    match Json.fields? ["id", "kind", "agents", "sources", "vectors"] j with
    | some [id, kind, agents, sources, vectors] => do
      return { id := ← needed? id, kind := ← needed? kind,
               agents := ← Network.Summary.count? agents,
               sources := ← Network.Summary.count? sources,
               vectors := ← Network.Summary.count? vectors }
    | _ => none

end Propagation
