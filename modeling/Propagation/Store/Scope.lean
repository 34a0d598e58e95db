import Propagation.Store.Basic

/-!
# Scopes

A scope begins a transaction, runs a body in it, and ends it: a body that succeeds is committed
and one that fails is given up. A serialized scope starts again from the beginning as long as
the body or its commit ends in a conflict, but only so often.

While a body runs it may use the store in other ways too, and it may keep a state of its own,
which is not given up with the transaction.

## Main definitions

* `RetryPolicy`: how often a serialized scope may be tried.
* `Scope`: computations that use a store and a state beside it.
* `Scope.single`: one transaction.
* `Scope.serialized`: serializable transactions, until one ends without a conflict.
-/

namespace Propagation

/-- How often a serialized scope may be tried. -/
structure RetryPolicy where
  maxAttempts : UInt32 := 100
  deriving DecidableEq

/-- A computation that uses a store and a state of type `σ` beside it. -/
abbrev Scope (σ : Type) := StateM (Store × σ)

namespace Scope

variable {σ α : Type}

/-- Use the store, as `f` does. -/
def onStore (f : Store → α × Store) : Scope σ α := modifyGet fun (store, rest) =>
  let (a, store) := f store
  (a, store, rest)

/-- What runs inside a scope: it gets the transaction and gives it back. -/
abbrev Body (σ α : Type) := Transaction → Scope σ (Except Error α × Transaction)

/-- Run `body` in a new transaction, which is committed if `body` succeeds. -/
def once (mode : TxMode) (isolation : Isolation) (body : Body σ α) : Scope σ (Except Error α) := do
  let (outcome, tx) ← body (← onStore (Store.begin mode isolation))
  match outcome with
  | .error e => return .error e
  | .ok a =>
    match ← onStore (Store.commit tx) with
    | .error e => return .error e
    | .ok () => return .ok a

/-- Run `body` in one read-committed transaction, whose commit nothing can hinder. -/
def single (mode : TxMode) (body : Body σ α) : Scope σ (Except Error α) :=
  once mode .readCommitted body

/-- Run a body in serializable transactions until one ends without a conflict, at most `attempts`
times. -/
def retry (body : Body σ α) (exhausted : Error) : (attempts : Nat) → Scope σ (Except Error α)
  | 0 => return .error exhausted
  | attempts + 1 => do
    match ← once .readWrite .serializable body with
    | .error e => if e.isConflict then retry body exhausted attempts else return .error e
    | .ok a => return .ok a

/-- Run `body` in serializable transactions until one ends without a conflict, as often as `policy`
allows. -/
def serialized (policy : RetryPolicy) (body : Body σ α) : Scope σ (Except Error α) :=
  retry body (.exhausted policy.maxAttempts) policy.maxAttempts.toNat

end Scope

end Propagation
