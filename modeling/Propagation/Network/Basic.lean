import Propagation.Id.Text
import Propagation.Timestamp

/-!
# Networks

A network groups nodes. Its members are not part of its record: a node points at its network,
and a vector belongs to the network of its origin.

## Main definitions

* `NetworkKind`: how an agent that joins is wired.
* `Network`: the record of a network.
-/

namespace Propagation

/-- How an agent that joins a network is wired. -/
inductive NetworkKind
  /-- Not at all. -/
  | base
  /-- The agent before it leads to it. -/
  | chain
  /-- Every other agent is joined with it, both ways. -/
  | fullyConnected
  /-- The first agent is joined with it, both ways. -/
  | star
  deriving DecidableEq

/-- What messages and records call the kind. -/
def NetworkKind.text : NetworkKind → String
  | base => "base"
  | chain => "chain"
  | fullyConnected => "fully_connected"
  | star => "star"

/-- The record of a network. -/
structure Network where
  id : NetworkId
  /-- How agents that join are wired. -/
  kind : NetworkKind
  creationTime : Timestamp
  deriving DecidableEq

end Propagation
