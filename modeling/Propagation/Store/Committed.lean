import Propagation.Transaction.Basic

/-!
# What is committed

The committed tables carry three accounts of who changed them: how often something was
committed, and for each record and each table in which of these commits it was last written.
A serializable transaction may commit only if nothing that it read, wrote or searched has been
written since it began.

## Main definitions

* `Committed`: the committed tables with their accounts.
* `Committed.isStale`: whether a transaction rests on something that has changed since.
* `Committed.apply`: copy the records that a transaction wrote.
-/

namespace Propagation

open Std (ExtTreeMap)

/-- The committed tables with the accounts of their changes. -/
structure Committed where
  tables : Tables := {}
  /-- The number of commits that wrote something. It has no bound here, while a store counts in 64
  bits; the two agree in every run of fewer than 2^64 commits, since `version` never exceeds the
  number of commits. -/
  version : Nat := 0
  /-- The last commit that wrote a record. -/
  recordVersions : ExtTreeMap Key Nat := ∅
  /-- The last commit that wrote to a table. -/
  tableVersions : ExtTreeMap Entity Nat := ∅

namespace Committed

/-- Whether the record under a key was written after `version`. -/
def recordNewer (c : Committed) (version : Nat) (k : Key) : Bool :=
  c.recordVersions[k]?.any (version < ·)

/-- Whether a record of this kind was written after `version`. -/
def tableNewer (c : Committed) (version : Nat) (e : Entity) : Bool :=
  c.tableVersions[e]?.any (version < ·)

/-- Whether something that `tx` read, wrote or searched was written since it began. -/
def isStale (c : Committed) (tx : Transaction) : Bool :=
  (tx.reads ++ tx.writes).any (c.recordNewer tx.beginVersion) ||
    tx.scans.any (c.tableNewer tx.beginVersion)

/-- Copy the record under a key from a view, as part of the commit `version`. -/
def applyKey (view : Tables) (version : Nat) (c : Committed) (k : Key) : Committed :=
  { c with
    tables := Tables.copy view k c.tables
    recordVersions := c.recordVersions.insert k version
    tableVersions := c.tableVersions.insert k.entity version }

/-- Copy the records under `keys` from `view`, as one commit. -/
def applyKeys (view : Tables) (keys : List Key) (c : Committed) : Committed :=
  let version := c.version + 1
  keys.foldl (applyKey view version) { c with version }

/-- Copy the records that `tx` wrote; if it wrote none, nothing changes. -/
def apply (tx : Transaction) (c : Committed) : Committed :=
  if tx.writes.isEmpty then c else applyKeys tx.view tx.writes c

end Committed

end Propagation
