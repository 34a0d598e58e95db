import Propagation.Record
import Std.Data.ExtTreeMap

/-!
# Tables

The records of an experiment, in one table for each kind. Beside the table of vectors stand two
indexes, which list the vectors that leave a node and those that enter it. A vector is entered
in the indexes when its identifier is new to the table, and stays where it was entered.

## Main definitions

* `Tables`: the six tables and the two indexes.
* `Tables.find?`: the record under a key.
* `Tables.put`: store a record under its key.
* `Tables.copy`: store what other tables hold under a key.
-/

namespace Propagation

open Std (ExtTreeMap)

/-- The records of an experiment. -/
structure Tables where
  networks : ExtTreeMap NetworkId Network := ∅
  nodes : ExtTreeMap NodeId Node := ∅
  vectors : ExtTreeMap VectorId Vector := ∅
  infos : ExtTreeMap InfoId Info := ∅
  transmissions : ExtTreeMap TransmissionId Transmission := ∅
  transformations : ExtTreeMap TransformationId Transformation := ∅
  /-- The vectors that leave a node, in the order in which they were stored. -/
  outgoing : ExtTreeMap NodeId (List VectorId) := ∅
  /-- The vectors that enter a node, in the order in which they were stored. -/
  incoming : ExtTreeMap NodeId (List VectorId) := ∅

namespace Tables

/-- The records of a table, in the order of their identifiers. -/
def rows {e : Entity} {ρ : Type} (table : ExtTreeMap (Id e) ρ) : List ρ :=
  table.toList.map Prod.snd

/-- The record under a key. -/
def find? (t : Tables) : Key → Option Record
  | .network id => t.networks[id]?.map .network
  | .node id => t.nodes[id]?.map .node
  | .vector id => t.vectors[id]?.map .vector
  | .info id => t.infos[id]?.map .info
  | .transmission id => t.transmissions[id]?.map .transmission
  | .transformation id => t.transformations[id]?.map .transformation

/-- Whether there is a record under the key `k`. -/
def has (t : Tables) (k : Key) : Bool := (t.find? k).isSome

/-- Add the vector `v` to the list of the node `n`. -/
def enlist (v : VectorId) (n : NodeId) (index : ExtTreeMap NodeId (List VectorId)) :
    ExtTreeMap NodeId (List VectorId) :=
  index.insert n (index.getD n [] ++ [v])

/-- Enter `v` in the indexes, unless the table of vectors knows it. -/
def link (v : Vector) (t : Tables) : Tables :=
  if t.vectors.contains v.id then t
  else { t with
    outgoing := enlist v.id v.origin t.outgoing
    incoming := enlist v.id v.destination t.incoming }

/-- Store `v` and enter it in the indexes if it is new. -/
def putVector (v : Vector) (t : Tables) : Tables :=
  let t := t.link v
  { t with vectors := t.vectors.insert v.id v }

/-- Store `r` under its key. -/
def put (r : Record) (t : Tables) : Tables :=
  match r with
  | .network n => { t with networks := t.networks.insert n.id n }
  | .node n => { t with nodes := t.nodes.insert n.id n }
  | .vector v => t.putVector v
  | .info i => { t with infos := t.infos.insert i.id i }
  | .transmission m => { t with transmissions := t.transmissions.insert m.id m }
  | .transformation m => { t with transformations := t.transformations.insert m.id m }

/-- Store what `source` holds under a key. -/
def copy (source : Tables) (k : Key) (t : Tables) : Tables :=
  match source.find? k with
  | some r => t.put r
  | none => t

end Tables

end Propagation
