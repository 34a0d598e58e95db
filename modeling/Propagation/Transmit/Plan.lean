import Propagation.Behavior
import Propagation.Node.Neighbours

/-!
# Sending

To send, a node first works out which infos go to which nodes. The names of the content and of
the recipients are worked off from a list of names still to do, each name replaced by what it
stands for; what is named twice counts once. Content that is named is checked before the
recipients are, and the behavior is asked for content only when there is somebody to send it
to, since it may create an info. Every info then goes to every recipient.

## Main definitions

* `Node.resolveContent`, `Node.resolveRecipients`: what a list of names stands for.
* `Node.plan`: which infos go to which nodes.
* `Node.transmit`: one transmission for each of these pairs.
-/

namespace Propagation.Node

/-- Add the info `i` to those `found` so far, unless it is among them. Node `n` has to be its
origin. -/
def takeInfo (n : Node) (found : List Info) (i : Info) : Except Error (List Info) :=
  if i.origin ≠ n.id then .error (.notOrigin n.id i.id)
  else if found.any (·.id = i.id) then .ok found
  else .ok (found ++ [i])

/-- The infos that the names in `work` stand for, after those `found` so far. -/
def resolveContent (n : Node) (work : List Content) (found : List Info) : Access (List Info) :=
  match work with
  | [] => return found
  | .info i :: rest => do
    let found ← ofExcept (n.takeInfo found i)
    n.resolveContent rest found
  | .ofType f :: rest => do
    let authored ← Access.infos { origin := some n.id, newestFirst := true }
    let found ← ofExcept ((authored.filter f.matches).foldlM n.takeInfo found)
    n.resolveContent rest found
  | .many items :: rest => n.resolveContent (items ++ rest) found
termination_by Content.sizeAll work
decreasing_by
  · simp [Content.sizeAll, Content.size]
  · simp [Content.sizeAll, Content.size]
  · simp [Content.sizeAll, Content.size, Content.sizeAll_append]

/-- Add the node `m` to those `found` so far, unless it is among them. A live vector has to lead
there from `n`. -/
def takeRecipient (n : Node) (found : List Node) (m : Node) : Access (List Node) := do
  if ← n.leadsToAlive m then
    return if found.any (·.id = m.id) then found else found ++ [m]
  else throw (.notConnected n.id m.id)

/-- The nodes that the names in `work` stand for, after those `found` so far. -/
def resolveRecipients (n : Node) (work : List Recipients) (found : List Node) :
    Access (List Node) :=
  match work with
  | [] => return found
  | .node m :: rest => do
    let found ← n.takeRecipient found m
    n.resolveRecipients rest found
  | .ofType f :: rest => do
    let found ← (← n.liveSuccessors f).foldlM n.takeRecipient found
    n.resolveRecipients rest found
  | .many items :: rest => n.resolveRecipients (items ++ rest) found
termination_by Recipients.sizeAll work
decreasing_by
  · simp [Recipients.sizeAll, Recipients.size]
  · simp [Recipients.sizeAll, Recipients.size]
  · simp [Recipients.sizeAll, Recipients.size, Recipients.sizeAll_append]

/-- The infos that `c` stands for, of which there has to be one. -/
def someContent (n : Node) (c : Content) : Access (List Info) := do
  match ← n.resolveContent [c] [] with
  | [] => throw (.nothingToSend n.id)
  | infos => return infos

/-- The nodes that `r` stands for, of which there has to be one. -/
def someRecipients (n : Node) (r : Recipients) : Access (List Node) := do
  match ← n.resolveRecipients [r] [] with
  | [] => throw (.nobodyToReach n.id)
  | nodes => return nodes

/-- The nodes to send to: those named in `r`, or else those that `b` names. -/
def planRecipients (n : Node) (b : Behavior) (r : Option Recipients) : Op (List Node) := do
  match r with
  | some r => n.someRecipients r
  | none =>
    match ← b.recipients n with
    | some r => n.someRecipients r
    | none => throw (.nobodyToReach n.id)

/-- Each of `infos` with each of `nodes`, one info after the other. -/
def pairs (infos : List Info) (nodes : List Node) : List (Info × Node) :=
  infos.flatMap fun i => nodes.map fun m => (i, m)

/-- Which infos go to which nodes. -/
def plan (n : Node) (b : Behavior) (c : Option Content) (r : Option Recipients) :
    Op (List (Info × Node)) := do
  match c with
  | some c =>
    let infos ← n.someContent c
    let nodes ← n.planRecipients b r
    return pairs infos nodes
  | none =>
    let nodes ← n.planRecipients b r
    match ← b.content n with
    | some c => return pairs (← n.someContent c) nodes
    | none => throw (.nothingToSend n.id)

/-- Make a transmission of the info to the node of the `pair` and store it. -/
def send (pair : Info × Node) : Op Transmission := do
  let t ← Transmission.fresh pair.1.id pair.2.id
  Access.insert (.transmission t)
  return t

/-- Send: one transmission for each pair of the `plan`, in its order. -/
def transmit (n : Node) (b : Behavior) (c : Option Content) (r : Option Recipients) :
    Op (List Transmission) := do
  (← n.plan b c r).mapM send

end Propagation.Node
