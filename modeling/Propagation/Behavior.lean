import Propagation.Transmit.Basic
import Propagation.Info.Authoring

/-!
# Behaviors

What a node does is not part of its record. It is a behavior: four hooks, which are asked when
the node sends without saying what or to whom, when it has received something, and when it is
to create information.

## Main definitions

* `Behavior`: the hooks. Unless it says otherwise, a behavior sends all that the node authored
  to all that it can reach, and neither takes up nor creates anything.
* `Behavior.replicator`: copies all that the node receives.
* `Behavior.constantSource`: sends the same contents each time, in a new info.
-/

namespace Propagation

/-- What a node does. -/
structure Behavior where
  /-- What to send if nothing is named. -/
  content : Node → Op (Option Content) := fun _ => pure (some (.ofType .any))
  /-- Whom to send to if nobody is named. -/
  recipients : Node → Op (Option Recipients) := fun _ => pure (some (.ofType .any))
  /-- Take up what was received. -/
  update : Node → List Info → Op Unit := fun n _ => throw (.noUpdate n)
  /-- Create information. -/
  createInformation : Node → Op Info := fun n => throw (.noCreation n)

namespace Behavior

/-- The behavior without hooks of its own: every hook takes its default. -/
def plain : Behavior := {}

/-- Copy all that the node receives. -/
def replicator : Behavior where
  update n infos := infos.forM fun i => do
    let _ ← n.replicate i

/-- Send the same `contents` each time, in a new info. -/
def constantSource (infoType contents : String) : Behavior where
  content n := do
    return some (.info (← Info.create n.id infoType contents))
  createInformation n := Info.create n.id infoType contents

end Behavior

end Propagation
