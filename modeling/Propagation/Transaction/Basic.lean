import Propagation.Tables.Basic
import Propagation.Text.Numeral

/-!
# Transactions

A transaction works on a view of its own: the tables as they were committed when it began, and
what it has written since. It keeps account of the records it read and wrote and of the tables
it searched, so that its end can be checked against what others have committed, and of the
messages it wants to have published.

## Main definitions

* `TxId`, `TxMode`, `Isolation`, `Message`: what a transaction is made of.
* `Transaction`: a transaction that has begun and not ended.
-/

namespace Propagation

/-- The number of a transaction. -/
structure TxId where
  number : UInt64
  deriving DecidableEq

/-- What messages call the transaction. -/
def TxId.text (i : TxId) : String := "tx-" ++ Numeral.decimal i.number.toNat

/-- Whether a transaction may write. -/
inductive TxMode
  | readOnly
  | readWrite
  deriving DecidableEq

/-- What a transaction asks of its end. -/
inductive Isolation
  /-- It always ends well; of two that wrote the same record the later one prevails. -/
  | readCommitted
  /-- It ends well only if nobody has committed what it read or wrote since it began. -/
  | serializable
  deriving DecidableEq

/-- A text to be published on a channel. -/
structure Message where
  channel : String
  payload : String
  deriving DecidableEq

/-- A transaction that has begun and not ended. -/
structure Transaction where
  id : TxId
  mode : TxMode
  isolation : Isolation
  /-- The version of the committed tables when the transaction began. -/
  beginVersion : Nat
  /-- The tables as the transaction sees them. -/
  view : Tables
  /-- The keys that were looked up, each once. -/
  reads : List Key := []
  /-- The keys of the records that were stored, each once. -/
  writes : List Key := []
  /-- The kinds of record that were searched, each once. -/
  scans : List Entity := []
  /-- The messages to publish, in order. -/
  outbox : List Message := []

namespace Transaction

/-- Note that the record under `k` was looked up. -/
def noteRead (k : Key) (tx : Transaction) : Transaction :=
  { tx with reads := tx.reads.insert k }

/-- Note that the table of the records of kind `e` was searched. -/
def noteScan (e : Entity) (tx : Transaction) : Transaction :=
  { tx with scans := tx.scans.insert e }

/-- Store `r` in the view and note its key. -/
def store (r : Record) (tx : Transaction) : Transaction :=
  { tx with writes := tx.writes.insert r.key, view := tx.view.put r }

/-- Add `m` to the messages that a commit publishes. -/
def queue (m : Message) (tx : Transaction) : Transaction :=
  { tx with outbox := tx.outbox ++ [m] }

end Transaction

end Propagation
