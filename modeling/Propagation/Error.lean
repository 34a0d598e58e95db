import Propagation.Transaction.Basic
import Propagation.Text.Quoted
import Propagation.Text.Count

/-!
# Errors

An error says what went wrong with which records. Errors fall into kinds, and the kind decides
how the message starts. A caller whose own code runs inside an operation reports its errors
under one of the topics.

## Main definitions

* `Topic`: the kinds of error whose message is a heading and a free text.
* `ErrorKind`: all kinds of error.
* `Error`: an error with its cause.
* `Error.kind`, `Error.message?`: its kind and what is said about it.
* `Error.isConflict`: whether trying again may help.
-/

namespace Propagation

/-- A kind of error whose message is a heading and a free text. -/
inductive Topic
  | invalidState
  | notImplemented
  | conceptual
  | invalidTimestamp
  | notFound
  | constraint
  | storage
  | transaction
  | conflict
  | config
  deriving DecidableEq

/-- How messages on a topic start, as `Error.message?` has them. -/
def Topic.heading : Topic → String
  | invalidState => "Invalid state: "
  | notImplemented => "Not implemented: "
  | conceptual => "Conceptual error: "
  | invalidTimestamp => "Invalid timestamp: "
  | notFound => "Not found: "
  | constraint => "Constraint violation: "
  | storage => "Storage error: "
  | transaction => "Transaction error: "
  | conflict => "Serialization conflict: "
  | config => "Config error: "

/-- A kind of error. -/
inductive ErrorKind
  /-- Contents are written a second time. -/
  | writeOnce
  /-- A node sends what another one authored. -/
  | ownership
  /-- A node sends to where no vector leads. -/
  | noConnection
  /-- There is nothing to send. -/
  | emptyContent
  /-- There is nobody to send to. -/
  | emptyRecipients
  /-- No attempt ended without a conflict. -/
  | retryExhausted
  /-- A text is not JSON, or not of the expected shape. -/
  | json
  /-- A file cannot be read. -/
  | file
  /-- The kinds that have a heading. -/
  | topic (topic : Topic)
  deriving DecidableEq

/-- An error with its cause. -/
inductive Error
  /-- The contents of an info are already written. -/
  | contentsWritten (info : InfoId)
  /-- The node is not the origin of the info that it sends. -/
  | notOrigin (node : NodeId) (info : InfoId)
  /-- No vector leads from one node to the other. -/
  | notConnected (origin destination : NodeId)
  /-- The node has nothing to send. -/
  | nothingToSend (node : NodeId)
  /-- The node has nobody to send to. -/
  | nobodyToReach (node : NodeId)
  /-- No status leads back to life. -/
  | noRevival (node : Node)
  /-- The node has already ended in another way. -/
  | endedOtherwise (node : Node) (target : NodeStatus)
  /-- The end of a stored node does not change. -/
  | nodeFinal (stored : Node)
  /-- The end of a stored vector does not change. -/
  | vectorFinal (stored : Vector)
  /-- The node does not play the role in which it is to join a network. -/
  | wrongRole (node : Node) (network : NetworkId) (role : NodeRole)
  /-- The behavior of the node does not say how to take up what it receives. -/
  | noUpdate (node : Node)
  /-- The behavior of the node does not say how to create information. -/
  | noCreation (node : Node)
  /-- A network has no length. -/
  | networkLength
  /-- A text is not a timestamp. -/
  | timestamp (text : String) (fault : Moment.Fault)
  /-- There is no record under the key. -/
  | missing (key : Key)
  /-- No vector has ever led from one node to the other. -/
  | noVector (origin destination : NodeId)
  /-- There is a record under the key already. -/
  | duplicate (key : Key)
  /-- The ends of a vector do not change. -/
  | fixedEndpoints (vector : VectorId)
  /-- The origin of an info does not change. -/
  | fixedOrigin (info : InfoId)
  /-- The info and the destination of a transmission do not change. -/
  | fixedDelivery (transmission : TransmissionId)
  /-- The transaction may not write. -/
  | readOnly (tx : TxId)
  /-- Others have committed what the transaction read or wrote. -/
  | conflict (tx : TxId)
  /-- All attempts ended in a conflict. -/
  | exhausted (attempts : UInt32)
  /-- The setting called `name` is not a count. -/
  | badCount (name raw : String) (fault : Count.Fault)
  /-- The number of attempts is zero. -/
  | noAttempts
  /-- A text is not JSON, or not of the expected shape. -/
  | json
  /-- A file cannot be read. -/
  | file
  /-- An error that the caller's own code reports. -/
  | reported (topic : Topic) (text : String)
  deriving DecidableEq

namespace Error

/-- The kind of an error. -/
def kind : Error → ErrorKind
  | contentsWritten _ => .writeOnce
  | notOrigin .. => .ownership
  | notConnected .. => .noConnection
  | nothingToSend _ => .emptyContent
  | nobodyToReach _ => .emptyRecipients
  | noRevival _ | endedOtherwise .. | nodeFinal _ | vectorFinal _ | wrongRole .. =>
    .topic .invalidState
  | noUpdate _ | noCreation _ => .topic .notImplemented
  | networkLength => .topic .conceptual
  | timestamp .. => .topic .invalidTimestamp
  | missing _ | noVector .. => .topic .notFound
  | duplicate _ | fixedEndpoints _ | fixedOrigin _ | fixedDelivery _ => .topic .constraint
  | readOnly _ => .topic .transaction
  | conflict _ => .topic .conflict
  | exhausted _ => .retryExhausted
  | badCount .. | noAttempts => .topic .config
  | json => .json
  | file => .file
  | reported t _ => .topic t

/-- What is said about an error, behind its `Topic.heading` if it has one. -/
def detail : Error → String
  | contentsWritten i =>
    "Write-once violation: contents of info " ++ i.text ++ " are already set"
  | notOrigin n i =>
    "Ownership error: node " ++ n.text ++ " is not the origin of info " ++ i.text
  | notConnected a b => "No connection: node " ++ a.text ++ " has no vector to node " ++ b.text
  | nothingToSend n => "Empty content: node " ++ n.text ++ " resolved nothing to transmit"
  | nobodyToReach n => "Empty recipients: node " ++ n.text ++ " resolved nobody to transmit to"
  | noRevival n => n.label ++ " cannot be revived"
  | endedOtherwise n target =>
    n.label ++ " is already " ++ n.status.text ++ ", cannot become " ++ target.text
  | nodeFinal n =>
    n.label ++ " is already " ++ n.status.text ++ ", its status and time of death are final"
  | vectorFinal v => v.label ++ " is already dead, its status and time of death are final"
  | wrongRole n network role =>
    n.label ++ " cannot join network " ++ network.text ++ " as " ++ role.label
  | noUpdate n => "the update method of " ++ n.label ++ " has not been overridden"
  | noCreation n => "create_information of " ++ n.label ++ " has not been overridden"
  | networkLength =>
    "len is not defined for networks; count agents(), sources() or vectors() instead"
  | timestamp text fault => Text.quote text ++ ": " ++ fault.message
  | missing k => k.label
  | noVector a b => "Vector " ++ a.text ++ " -> " ++ b.text
  | duplicate k => k.label ++ " already exists"
  | fixedEndpoints v => "endpoints of " ++ v.text ++ " are immutable"
  | fixedOrigin i => "origin of " ++ i.text ++ " is immutable"
  | fixedDelivery t => "info and destination of " ++ t.text ++ " are immutable"
  | readOnly tx => tx.text ++ " is read-only"
  | conflict tx => tx.text ++ " read data modified by a concurrent transaction"
  | exhausted n =>
    "Could not commit serialized transaction after " ++ Numeral.decimal n.toNat ++ " attempts"
  | badCount name raw fault => name ++ "=" ++ Text.quote raw ++ ": " ++ fault.message
  | noAttempts => "retry.max_attempts must be at least 1"
  | json => ""
  | file => ""
  | reported _ text => text

/-- What is said about an error. On JSON and files there is nothing to say. -/
def message? (e : Error) : Option String :=
  match e.kind with
  | .json | .file => none
  | .topic t => some (t.heading ++ e.detail)
  | _ => some e.detail

/-- Whether the error is a `conflict`, so that another attempt may help. -/
def isConflict (e : Error) : Bool := e.kind = .topic .conflict

end Error

end Propagation
