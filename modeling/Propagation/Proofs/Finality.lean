import Propagation.Proofs.Order

/-!
# What is final stays so

The order on tables says what records keep. Here it is followed through everything that can
happen: whatever is asked in an open transaction, and whichever operation is called there through
whichever copy of a record, moves the view of the transaction up; and the commit of a serializable
transaction moves the committed tables up, whatever was committed since it began.

## Main definitions

* `Holding.on`: an operation on a copy, as an operation.
* `Change`: the operations that change records, with what they are called with.

## Main statements

* `Change.asks`: what changes records does so by requests.
* `World.Reachable.finality`: views and committed tables only move up.
-/

namespace Propagation

/-- Run the operation `a` on the copy `copy`, and forget the copy. -/
def Holding.on {ρ α : Type} (copy : ρ) (a : Holding ρ α) : Op Unit := fun scene =>
  match a { copy, scene } with
  | .ok _ h => .ok () h.scene
  | .error e h => .error e h.scene

theorem Holding.scene_final_on {ρ α : Type} (copy : ρ) (a : Holding ρ α) (scene : Scene) :
    final (Holding.on copy a scene) = (final (a { copy, scene })).scene := by
  rw [Holding.on]
  cases a { copy, scene } <;> rfl

/-- An operation on a copy does to the transaction what it does with `Holding.on`. -/
theorem Asks.on {P : Request → Prop} {ρ α : Type} {a : Holding ρ α} (h : Asks P a) (copy : ρ) :
    Asks P (Holding.on copy a) := fun scene => by
  rw [Holding.scene_final_on]
  exact h { copy, scene }

/-- What changes records: a request, or an operation that is called through a copy of a record,
which may be out of date or made up. -/
inductive Change
  | request (r : Request)
  | kill (copy : Node)
  | fail (copy : Node)
  | killVector (copy : Vector)
  | write (copy : Info) (contents : String)
  | receive (copy : Transmission)
  /-- The behavior is the caller's. It works on the transaction by requests. -/
  | receiveAll (copy : Node) (b : Behavior) (hb : b.Asks AnyRequest)
  | addSource (network : Network) (copy : Node)
  | addSourceToAll (network : Network) (copy : Node)
  | addSourceTo (network : Network) (copy : Node) (agent : NodeId)
  | addAgent (network : Network) (copy : Node)

namespace Change

/-- What a change does to a scene. -/
def op : Change → Op Unit
  | request r => do let _ ← (Op.access r.perform)
  | kill copy => Holding.on copy Node.kill
  | fail copy => Holding.on copy Node.fail
  | killVector copy => Holding.on copy Vector.kill
  | write copy contents => Holding.on copy (Info.write contents)
  | receive copy => Holding.on copy Transmission.receive
  | receiveAll copy b _ => do let _ ← copy.receiveAll b
  | addSource network copy => Holding.on copy network.addSource
  | addSourceToAll network copy => Holding.on copy network.addSourceToAll
  | addSourceTo network copy agent => Holding.on copy (network.addSourceTo agent)
  | addAgent network copy => Holding.on copy network.addAgent

/-- What a `Change` does to the transaction it does by requests. -/
theorem asks (c : Change) : Asks AnyRequest c.op := by
  have hany : ∀ r : Request, r.delivers = false → AnyRequest r := fun _ _ => trivial
  cases c with
  | request r => exact .bind (.access (.of_final trivial fun _ => rfl)) fun _ => .pure _
  | kill copy => exact (Node.asks_finish hany .dead).on copy
  | fail copy => exact (Node.asks_finish hany .failed).on copy
  | killVector copy => exact (Vector.asks_kill hany).on copy
  | write copy contents => exact (Info.asks_write hany contents).on copy
  | receive copy => exact (Transmission.asks_receive fun _ => trivial).on copy
  | receiveAll copy b hb => exact .bind (copy.asks_receiveAll hb) fun _ => .pure _
  | addSource network copy => exact (network.asks_addSource hany).on copy
  | addSourceToAll network copy => exact (network.asks_addSourceToAll hany).on copy
  | addSourceTo network copy agent => exact (network.asks_addSourceTo hany agent).on copy
  | addAgent network copy => exact (network.asks_addAgent hany).on copy

end Change

namespace World

variable {α : Type}

/-- In every world that can come about, and in every transaction that is open there: whatever
changes records moves the view up; and if the transaction is serializable and is committed, this
moves the committed tables up. -/
theorem Reachable.finality {w : World α} (h : w.Reachable) {name : Nat} {s : Session α}
    (hs : w.sessions name = some s) :
    (∀ c : Change, s.tx.view ≤ (w.store.run c.op s.tx).1.2.view) ∧
    (s.tx.isolation = .serializable → (w.store.commit s.tx).1 = .ok () →
      w.store.committed.tables ≤ (w.store.commit s.tx).2.committed.tables) := by
  constructor
  · intro c
    rw [tx_run]
    exact (c.asks ⟨s.tx, w.store.mint⟩).le_view
  · intro hser hok
    cases hc : w.store.conflicts s.tx with
    | true =>
      rw [Store.commit_of_conflicts hc] at hok
      cases hok
    | false =>
      rw [Store.commit_of_not_conflicts hc]
      exact h.sound.le_apply hs hser hc

/-- A node as it was before it died, in `mourning`. -/
def mortal : Node := { id := ⟨0⟩, kind := .agent, creationTime := .ofMoment .first }

/-- One change after the other in the transaction of the world `w`. -/
def changing (changes : List Change) (w : World Unit) : World Unit :=
  changes.foldl (fun w c => w.use 0 c.op fun _ note => note) w

theorem Reachable.changing {w : World Unit} (h : w.Reachable) (changes : List Change) :
    (w.changing changes).Reachable :=
  List.foldlRecOn changes _ h fun _ hw c _ => hw.use 0 c.asks _

/-- A transaction stores a node and lets it die. -/
def mourning : World Unit :=
  ((init .still).begin 0 .readWrite .serializable ()).changing
    [.request (.insert (.node mortal)), .kill mortal]

/-- The dead node does not fail any more through a copy that says that it is alive, and is still
dead once it is committed. -/
theorem finality_mourning : ∃ s, mourning.sessions 0 = some s ∧
    s.tx.view ≤ (mourning.store.run (Change.fail mortal).op s.tx).1.2.view ∧
    mourning.store.committed.tables ≤ (mourning.store.commit s.tx).2.committed.tables := by
  have hs : mourning.sessions 0 = some _ := rfl
  have h : mourning.Reachable := .changing (.begin 0 _ _ _ (.init _)) _
  obtain ⟨hview, hcommitted⟩ := Reachable.finality h hs
  exact ⟨_, hs, hview (.fail mortal), hcommitted rfl rfl⟩

end World

end Propagation
