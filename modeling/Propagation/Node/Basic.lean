import Propagation.Id.Text
import Propagation.Timestamp

/-!
# Nodes

A node takes part in an experiment: it authors infos, and vectors lead from node to node. Its
neighbours and degrees are not part of it; they are asked of the vectors.

## Main definitions

* `NodeRole`, `NodeKind`, `NodeStatus`: what a node is and how it fares.
* `NodeFilter`: a choice of nodes by what they are.
* `Node`: the record of a node.
-/

namespace Propagation

/-- The part that a node plays in a network. -/
inductive NodeRole
  /-- No part. -/
  | base
  /-- It originates information. -/
  | source
  /-- It receives, transforms and forwards information. -/
  | agent
  deriving DecidableEq

/-- What messages call a node of this role. -/
def NodeRole.label : NodeRole → String
  | base => "Base"
  | source => "Source"
  | agent => "Agent"

/-- What a node is: its role and a free tag. -/
structure NodeKind where
  /-- The role. -/
  role : NodeRole
  /-- The tag. -/
  typeName : String
  deriving DecidableEq

namespace NodeKind

/-- The kind of a node with no role and no tag of its own. -/
def base : NodeKind := ⟨.base, "base"⟩

/-- The kind of a source with no tag of its own. -/
def source : NodeKind := ⟨.source, "generic_source"⟩

/-- The kind of an agent with no tag of its own. -/
def agent : NodeKind := ⟨.agent, "agent"⟩

end NodeKind

/-- How a node fares. A node that is dead or failed stays so. -/
inductive NodeStatus
  | alive
  | dead
  | failed
  deriving DecidableEq

/-- What messages call a status. -/
def NodeStatus.text : NodeStatus → String
  | alive => "alive"
  | dead => "dead"
  | failed => "failed"

/-- The record of a node. -/
structure Node where
  id : NodeId
  /-- What the node is. -/
  kind : NodeKind
  creationTime : Timestamp
  /-- How the node fares. -/
  status : NodeStatus := .alive
  /-- When the node died or failed. -/
  timeOfDeath : Option Timestamp := none
  /-- The network that the node is a member of. -/
  network : Option NetworkId := none
  /-- What the world outside calls the node. -/
  participant : Option String := none
  deriving DecidableEq

/-- A choice of nodes by what they are. -/
inductive NodeFilter
  /-- Every node. -/
  | any
  /-- The nodes of a role. -/
  | role (role : NodeRole)
  /-- The nodes of a tag. -/
  | type (name : String)
  deriving DecidableEq

/-- Whether the filter chooses a node. -/
def NodeFilter.matches : NodeFilter → Node → Bool
  | any, _ => true
  | role r, n => n.kind.role = r
  | type name, n => n.kind.typeName = name

namespace Node

/-- Whether the node is alive. -/
def isAlive (n : Node) : Bool := n.status = .alive

/-- What messages call the node. -/
def label (n : Node) : String := "Node-" ++ n.id.short ++ "-" ++ n.kind.typeName

end Node

end Propagation
