import Propagation.Store.Committed
import Propagation.Operation

/-!
# The store

A store holds the committed records of an experiment, its mint, and the logs to which the
messages of committed transactions are published. A transaction is taken out of the store,
worked on, and given back to be committed; to give a transaction up is to forget it.

## Main definitions

* `Store`: the state of a store.
* `Store.begin`: a new transaction.
* `Store.commit`: end a transaction, with its records and messages if nothing is in the way.
* `Store.run`: run an operation in a transaction.
* `Store.subscribe`, `Store.messages?`, `Store.drain?`: logs of messages.
* `Store.text`: the store as messages show it.
-/

namespace Propagation

open Std (ExtTreeMap)

/-- The state of a store. -/
structure Store where
  committed : Committed := {}
  mint : Mint
  /-- The number of the last transaction. -/
  begun : UInt64 := 0
  /-- The logs that receive each message, in order; a log may be named several times. -/
  subscriptions : List String := []
  /-- The messages that each log received and still keeps. -/
  logs : ExtTreeMap String (List Message) := ∅

namespace Store

/-- A new transaction, which sees the committed tables. -/
def begin (mode : TxMode) (isolation : Isolation) (s : Store) : Transaction × Store :=
  let id := s.begun + 1
  ({ id := ⟨id⟩, mode, isolation, beginVersion := s.committed.version,
     view := s.committed.tables }, { s with begun := id })

/-- Add `m` to the log called `log`. -/
def append (m : Message) (logs : ExtTreeMap String (List Message)) (log : String) :
    ExtTreeMap String (List Message) :=
  logs.insert log (logs.getD log [] ++ [m])

/-- Send `messages` to all logs, one message after the other. -/
def publish (messages : List Message) (s : Store) : Store :=
  { s with logs := messages.foldl (fun logs m => s.subscriptions.foldl (append m) logs) s.logs }

/-- Whether `tx` can not be committed, because it is serializable and what it rests on has changed.
-/
def conflicts (tx : Transaction) (s : Store) : Bool :=
  tx.isolation = .serializable && s.committed.isStale tx

/-- End `tx`: copy the records it wrote and publish its messages, or, on a conflict, neither. -/
def commit (tx : Transaction) (s : Store) : Except Error Unit × Store :=
  if s.conflicts tx then (.error (.conflict tx.id), s)
  else (.ok (), publish tx.outbox { s with committed := s.committed.apply tx })

/-- Run the operation `op` in `tx`. -/
def run {α : Type} (op : Op α) (tx : Transaction) (s : Store) :
    (Except Error α × Transaction) × Store :=
  match op { tx, mint := s.mint } with
  | .ok a scene => ((.ok a, scene.tx), { s with mint := scene.mint })
  | .error e scene => ((.error e, scene.tx), { s with mint := scene.mint })

/-- Use the mint outside any transaction, as `a` does. -/
def minting {α : Type} (a : Minting α) (s : Store) : α × Store :=
  let (v, mint) := a s.mint
  (v, { s with mint })

/-- Have the messages of later commits sent to `log`, once more if it is subscribed already. -/
def subscribe (log : String) (s : Store) : Store :=
  { s with
    subscriptions := s.subscriptions ++ [log]
    logs := if s.logs.contains log then s.logs else s.logs.insert log [] }

/-- The messages that `log` keeps. -/
def messages? (log : String) (s : Store) : Option (List Message) := s.logs[log]?

/-- Empty `log` and tell what it kept. -/
def drain? (log : String) (s : Store) : Option (List Message × Store) :=
  (s.messages? log).map fun messages => (messages, { s with logs := s.logs.insert log [] })

/-- The store as messages show it. -/
def text (s : Store) : String :=
  let c := s.committed
  "MemoryStore \x7b version: " ++ Numeral.decimal c.version ++
    ", nodes: " ++ Numeral.decimal c.tables.nodes.size ++
    ", vectors: " ++ Numeral.decimal c.tables.vectors.size ++
    ", infos: " ++ Numeral.decimal c.tables.infos.size ++ " \x7d"

end Store

end Propagation
