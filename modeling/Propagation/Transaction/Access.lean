import Propagation.Error
import Propagation.Tables.Query

/-!
# Access to the records

What can be done with the records inside a transaction: look one up, search a table, store a
new record, revise a stored one. Looking up and searching are noted in the transaction. What
is stored is first checked against the view, so that no reference leads nowhere and what is
final stays as it is; a record that fails a check leaves the transaction as it was.

## Main definitions

* `Access`: computations that use a transaction and may fail.
* `Access.insert`: store a new record.
* `Revision`: a new version of a stored record, for the kinds of record that change.
* `Access.revise`: replace a stored record.
* `Access.getNode`, `Access.requireNode`, `Access.nodes` and their siblings: look up, look up
  what has to be there, search.
-/

namespace Propagation

/-- A computation that uses a transaction and may fail. What it did before it failed stays. -/
abbrev Access := EStateM Error Transaction

/-- The first of `keys` under which there is no record. -/
def Tables.firstMissing? (t : Tables) (keys : List Key) : Option Key :=
  keys.find? fun k => !t.has k

/-- Check that all of `keys` have a record. -/
def Tables.requireAll (t : Tables) (keys : List Key) : Except Error Unit :=
  match t.firstMissing? keys with
  | some k => .error (.missing k)
  | none => .ok ()

/-- Check that `r` may be stored as a new record: its key is free, and what it refers to is there.
-/
def Record.accept (t : Tables) (r : Record) : Except Error Unit :=
  if t.has r.key then .error (.duplicate r.key) else t.requireAll r.references

/-- A new version of a stored record. Networks and transformations never change. -/
inductive Revision
  | node (node : Node)
  | vector (vector : Vector)
  | info (info : Info)
  | transmission (transmission : Transmission)

namespace Revision

/-- The record as it shall be. -/
def record : Revision → Record
  | node n => .node n
  | vector v => .vector v
  | info i => .info i
  | transmission t => .transmission t

/-- Check that `new` may replace the stored node: the end of a node does not change. -/
def acceptNode (t : Tables) (new : Node) : Except Error Unit :=
  match t.nodes[new.id]? with
  | none => .error (.missing (.node new.id))
  | some old =>
    if !old.isAlive && (old.status ≠ new.status || old.timeOfDeath ≠ new.timeOfDeath) then
      .error (.nodeFinal old)
    else t.requireAll (Record.node new).references

/-- Check that `new` may replace the stored vector: its ends and its death do not change. -/
def acceptVector (t : Tables) (new : Vector) : Except Error Unit :=
  match t.vectors[new.id]? with
  | none => .error (.missing (.vector new.id))
  | some old =>
    if old.origin ≠ new.origin || old.destination ≠ new.destination then
      .error (.fixedEndpoints new.id)
    else if !old.isAlive && (old.status ≠ new.status || old.timeOfDeath ≠ new.timeOfDeath) then
      .error (.vectorFinal old)
    else .ok ()

/-- Check that `new` may replace the stored info: its origin does not change, and one that has
contents does not change at all. -/
def acceptInfo (t : Tables) (new : Info) : Except Error Unit :=
  match t.infos[new.id]? with
  | none => .error (.missing (.info new.id))
  | some old =>
    if old.origin ≠ new.origin then .error (.fixedOrigin new.id)
    else if old.hasContents then .error (.contentsWritten new.id)
    else .ok ()

/-- Check that `new` may replace the stored transmission: its info and its destination do not
change. -/
def acceptTransmission (t : Tables) (new : Transmission) : Except Error Unit :=
  match t.transmissions[new.id]? with
  | none => .error (.missing (.transmission new.id))
  | some old =>
    if old.info ≠ new.info || old.destination ≠ new.destination then
      .error (.fixedDelivery new.id)
    else .ok ()

/-- Check that a new version of a record may replace the stored one. -/
def accept (t : Tables) : Revision → Except Error Unit
  | node n => acceptNode t n
  | vector v => acceptVector t v
  | info i => acceptInfo t i
  | transmission m => acceptTransmission t m

end Revision

namespace Access

/-- Store `r`, if the transaction may write. -/
def record (r : Record) : Access Unit := do
  let tx ← get
  match tx.mode with
  | .readOnly => throw (.readOnly tx.id)
  | .readWrite => set (tx.store r)

/-- Store `r`, if it was `accepted`. -/
def recordIf (accepted : Except Error Unit) (r : Record) : Access Unit :=
  match accepted with
  | .error e => throw e
  | .ok () => record r

/-- Store `r` as a new record. -/
def insert (r : Record) : Access Unit := do
  recordIf (r.accept (← get).view) r

/-- Replace a stored record by its new version `r`. -/
def revise (r : Revision) : Access Unit := do
  recordIf (r.accept (← get).view) r.record

/-- Look up the record under `k` and note it. -/
def find? (k : Key) : Access (Option Record) := do
  modify (·.noteRead k)
  return (← get).view.find? k

section Lookup

variable {α : Type}

/-- Look up with `f` what stands under `k`, and note it. -/
def look (k : Key) (f : Tables → Option α) : Access (Option α) := do
  modify (·.noteRead k)
  return f (← get).view

/-- Look up with `f` what has to stand under `k`, and note it. -/
def require (k : Key) (f : Tables → Option α) : Access α := do
  match ← look k f with
  | some a => return a
  | none => throw (.missing k)

end Lookup

/-! ### Records of one kind

`get` answers with nothing if there is no such record, `require` fails. -/

def getNetwork (id : NetworkId) : Access (Option Network) := look (.network id) (·.networks[id]?)
def getNode (id : NodeId) : Access (Option Node) := look (.node id) (·.nodes[id]?)
def getVector (id : VectorId) : Access (Option Vector) := look (.vector id) (·.vectors[id]?)
def getInfo (id : InfoId) : Access (Option Info) := look (.info id) (·.infos[id]?)

def getTransmission (id : TransmissionId) : Access (Option Transmission) :=
  look (.transmission id) (·.transmissions[id]?)

def getTransformation (id : TransformationId) : Access (Option Transformation) :=
  look (.transformation id) (·.transformations[id]?)

def requireNetwork (id : NetworkId) : Access Network := require (.network id) (·.networks[id]?)
def requireNode (id : NodeId) : Access Node := require (.node id) (·.nodes[id]?)
def requireVector (id : VectorId) : Access Vector := require (.vector id) (·.vectors[id]?)
def requireInfo (id : InfoId) : Access Info := require (.info id) (·.infos[id]?)

/-- Search the nodes. -/
def nodes (q : NodeQuery) : Access (List Node) := do
  modify (·.noteScan .node)
  return (← get).view.selectNodes q

/-- Search the vectors. A query that names a network also searches the nodes. -/
def vectors (q : VectorQuery) : Access (List Vector) := do
  modify (·.noteScan .vector)
  if q.network.isSome then
    modify (·.noteScan .node)
  return (← get).view.selectVectors q

/-- The number of vectors that a search for `q` finds. -/
def countVectors (q : VectorQuery) : Access Nat := return (← vectors q).length

/-- Search the infos. -/
def infos (q : InfoQuery) : Access (List Info) := do
  modify (·.noteScan .info)
  return (← get).view.selectInfos q

/-- Search the transmissions. A query that names an origin also searches the infos. -/
def transmissions (q : TransmissionQuery) : Access (List Transmission) := do
  modify (·.noteScan .transmission)
  if q.origin.isSome then
    modify (·.noteScan .info)
  return (← get).view.selectTransmissions q

/-- Search the transformations. -/
def transformations (q : TransformationQuery) : Access (List Transformation) := do
  modify (·.noteScan .transformation)
  return (← get).view.selectTransformations q

end Access

end Propagation
