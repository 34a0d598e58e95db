import Propagation.Proofs.Curation
import Propagation.Proofs.Seniority

/-!
# Joining a network again

The agents that a newcomer is wired to are looked up before it becomes a member. A node that is new
to the network is therefore not among them. But nothing keeps a member from being added once more,
and then it finds itself among the agents that came before: in a fully connected network always, in
a star if it is the hub, and in a chain if it is the last. It is then wired to itself.

## Main definitions

* `NetworkKind.Loops`: the newcomer is one of those that it is wired to.

## Main statements

* `NetworkKind.exists_loop_iff`: then, and only then, a vector leads from it to itself.
* `World.Reachable.loops_addAgent`: so it is in every transaction, and only for a member that is
  alive.
-/

namespace Propagation

namespace NetworkKind

/-- An agent `new` that joins is one of the `earlier` ones that it is wired to. -/
def Loops (earlier : List NodeId) (new : NodeId) : NetworkKind → Prop
  | base => False
  | chain => earlier.getLast? = some new
  | fullyConnected => new ∈ earlier
  | star => earlier.head? = some new

variable {kind : NetworkKind} {earlier : List NodeId} {new : NodeId}

instance : Decidable (kind.Loops earlier new) :=
  match kind with
  | base => inferInstanceAs (Decidable False)
  | chain => inferInstanceAs (Decidable (earlier.getLast? = some new))
  | fullyConnected => inferInstanceAs (Decidable (new ∈ earlier))
  | star => inferInstanceAs (Decidable (earlier.head? = some new))

/-- An agent that is wired to itself is among the `earlier` ones. -/
theorem Loops.mem (h : kind.Loops earlier new) : new ∈ earlier := by
  cases kind with
  | base => cases h
  | chain => exact List.mem_of_getLast? h
  | fullyConnected => exact h
  | star => exact List.mem_of_head? h

/-- The two ends of a vector are the same exactly if the newcomer `Loops`. -/
theorem exists_loop_iff :
    (∃ p ∈ kind.wiring earlier new, p.1 = p.2) ↔ kind.Loops earlier new := by
  constructor
  · rintro ⟨p, hp, hloop⟩
    cases kind with
    | base => cases hp
    | chain =>
      obtain ⟨previous, hprevious, rfl⟩ := List.mem_map.1 hp
      obtain rfl : previous = new := hloop
      exact Option.mem_toList.1 hprevious
    | fullyConnected =>
      -- either way one end is the newcomer, and so both are
      rcases mem_wiring hp with ⟨hother, hnew⟩ | ⟨hnew, hother⟩
      · rwa [hloop, hnew] at hother
      · rwa [← hloop, hnew] at hother
    | star =>
      obtain ⟨hub, hhub, hp⟩ := List.mem_flatMap.1 hp
      have hsame : hub = new := by
        rcases List.mem_pair.1 hp with rfl | rfl
        · exact hloop
        · exact hloop.symm
      exact hsame ▸ Option.mem_toList.1 hhub
  · intro h
    refine ⟨(new, new), ?_, rfl⟩
    cases kind with
    | base => cases h
    | chain => exact List.mem_map.2 ⟨new, Option.mem_toList.2 h, rfl⟩
    | fullyConnected => exact List.mem_flatMap.2 ⟨new, h, .head _⟩
    | star => exact List.mem_flatMap.2 ⟨new, Option.mem_toList.2 h, .head _⟩

end NetworkKind

theorem Holding.through_op {ρ α : Type} (copy : ρ) (a : Op α) (scene : Scene) :
    through copy (liftM a) scene = a scene := by
  rw [through, show (liftM a : Holding ρ α) { copy, scene } = op a { copy, scene } from rfl, op]
  cases a scene <;> rfl

theorem Curates.through {held : Info → Prop} {ρ α : Type} {a : Holding ρ α} (h : Curates held a)
    (copy : ρ) : Curates held (Holding.through copy a) := by
  intro scene
  have hsteps := h { copy, scene }
  change Relation.ReflTransGen _ scene (final (Holding.through copy a scene))
  rwa [Holding.scene_final_through]

/-! ## What wiring stores -/

/-- If the record `r` is a vector, it leads between two of the `ends`. -/
def Record.Joins (ends : List (NodeId × NodeId)) (r : Record) : Prop :=
  ∀ v, r = .vector v → (v.origin, v.destination) ∈ ends

namespace Network

/-- What `wire` answers is what the mint makes. -/
theorem eq_freshAll_of_wire {ends : List (NodeId × NodeId)} {s s' : Scene} {made : List Vector}
    (h : wire ends s = .ok made s') : made = (Vector.freshAll ends s.mint).1 := by
  induction ends generalizing s made with
  | nil =>
    cases h
    rfl
  | cons p ends ih =>
    rw [wire_cons] at h
    obtain ⟨v, s₁, hv, h⟩ := Op.of_bind_ok h
    obtain ⟨vs, s₂, hvs, h⟩ := Op.of_bind_ok h
    cases h
    rw [Node.connect, Op.bind_of_ok (Op.minting_apply _ _)] at hv
    obtain ⟨_, s₃, hinsert, hv⟩ := Op.of_bind_ok hv
    cases hv
    obtain ⟨tx, -, rfl⟩ := Op.of_access_ok hinsert
    rw [ih hvs, Vector.freshAll_cons]

/-- To `wire` stores nothing but vectors with these `ends`. -/
theorem asks_wire_joins (ends : List (NodeId × NodeId)) :
    Asks (Request.Stores (Record.Joins ends)) (wire ends) := by
  suffices ∀ l ⊆ ends, Asks (Request.Stores (Record.Joins ends)) (wire l) from
    this ends (List.Subset.refl ends)
  intro l hl
  induction l with
  | nil => exact .pure []
  | cons p l ih =>
    obtain ⟨hp, hl⟩ := List.cons_subset.1 hl
    rw [wire_cons]
    refine .bind (.bind_minting fun m => ?_) fun v => .bind (ih hl) fun vs => .pure _
    refine .bind (.access (.insert (Request.stores_insert ?_))) fun _ => .pure _
    rintro v ⟨⟩
    exact hp

variable {network : Network} {copy : Node} {tx : Transaction} {mint : Mint}

/-- With `addAgent`, a node either is turned away without a trace, or it becomes a member and is
then wired. -/
theorem addAgent_wires (hkeyed : tx.view.Keyed) :
    (∃ e tx', Holding.through copy network.addAgent { tx, mint } = .error e { tx := tx', mint } ∧
      tx'.view = tx.view) ∨
    ∃ stored, tx.view.nodes[copy.id]? = some stored ∧
      Holding.through copy network.addAgent { tx, mint } =
        wire (network.endsIn tx.view copy.id)
          { tx := network.enroll stored (tx.noteScan .node), mint } := by
  rcases @addAgent_adopts network copy tx mint hkeyed with
    ⟨e, tx', hadd, hview, -⟩ | ⟨stored, hrole, hid, hstored, hnetwork, hmode⟩
  · refine .inl ⟨e, tx', ?_, hview⟩
    rw [Holding.through, hadd]
  · refine .inr ⟨stored, hstored, ?_⟩
    rw [Holding.through, addAgent_apply hrole hid hstored hnetwork hmode]
    exact Holding.through_op _ _ _

/-- The vectors that `addAgent` answers have the ends that the kind of the network asks for. -/
theorem ends_of_addAgent (hkeyed : tx.view.Keyed) {made : List Vector} {scene : Scene}
    (h : Holding.through copy network.addAgent { tx, mint } = .ok made scene) :
    made.map (fun v => (v.origin, v.destination)) = network.endsIn tx.view copy.id := by
  rcases @addAgent_wires network copy tx mint hkeyed with ⟨e, tx', herror, -⟩ | ⟨stored, -, hrun⟩
  · rw [herror] at h
    cases h
  · rw [hrun] at h
    rw [eq_freshAll_of_wire h, Vector.ends_freshAll]

/-- Every vector `v` there is after `addAgent` was there before, or has ends that the kind of the
network asks for. -/
theorem vectors_of_addAgent (hkeyed : tx.view.Keyed) {i : VectorId} {v : Vector}
    (h : (final (Holding.through copy network.addAgent { tx, mint })).tx.view.vectors[i]? =
      some v) :
    tx.view.vectors[i]? = some v ∨
      (v.origin, v.destination) ∈ network.endsIn tx.view copy.id := by
  rcases @addAgent_wires network copy tx mint hkeyed with
    ⟨e, tx', herror, hview⟩ | ⟨stored, -, hrun⟩
  · rw [herror] at h
    rw [← hview]
    exact .inl h
  · rw [hrun] at h
    have hstores := asks_wire_joins (network.endsIn tx.view copy.id)
      { tx := network.enroll stored (tx.noteScan .node), mint }
    rcases Transaction.Becomes.find?_cases hstores (Tables.find?_vector.2 h) with hold | hnew
    · -- to become a member is to store a node, and no vector
      change (tx.view.put (.node (network.member stored))).find? (.vector i) = _ at hold
      rw [Tables.find?_put, if_neg nofun] at hold
      exact .inl (Tables.find?_vector.1 hold)
    · exact .inr (hnew v rfl)

end Network

/-- An agent is added in a transaction of a world that can come about. Some of the vectors that are
answered lead from it to itself exactly if it is one of the agents before it that the kind of the
network has it wired to. Also where it fails, no other vector of the view leads to its own origin
unless it did so before. The agent then is a member already, and alive: no agent that is new to the
network, and none that has died or failed, is wired to itself. -/
theorem World.Reachable.loops_addAgent {α : Type} {w : World α} (hw : w.Reachable) {name : Nat}
    {s : Session α} (hs : w.sessions name = some s) (network : Network) (copy : Node)
    (mint : Mint) :
    let t := s.tx.view
    let result := Holding.through copy network.addAgent { tx := s.tx, mint }
    let loops := network.kind.Loops ((network.agentsIn t).map (·.id)) copy.id
    (∀ made scene, result = .ok made scene →
      ((∃ v ∈ made, v.origin = v.destination) ↔ loops)) ∧
    (∀ (i : VectorId) (v : Vector), (final result).tx.view.vectors[i]? = some v →
      v.origin = v.destination → t.vectors[i]? = some v ∨ loops) ∧
    (loops → ∃ stored, t.nodes[copy.id]? = some stored ∧ stored.network = some network.id ∧
      stored.kind.role = .agent ∧ stored.isAlive) := by
  intro t result loops
  have hkeyed : t.Keyed := (hw.sound.sessions name s hs).keyed_view
  refine ⟨?_, ?_, ?_⟩
  · intro made scene hok
    have hends := Network.ends_of_addAgent hkeyed hok
    have hloops :=
      @NetworkKind.exists_loop_iff network.kind ((network.agentsIn t).map (·.id)) copy.id
    rw [← Network.endsIn, ← hends] at hloops
    simpa using hloops
  · intro i v hv hloop
    rcases Network.vectors_of_addAgent hkeyed hv with hold | hmem
    · exact .inl hold
    · exact .inr (NetworkKind.exists_loop_iff.1 ⟨_, hmem, hloop⟩)
  · intro hloops
    obtain ⟨n, hn, hid⟩ := List.mem_map.1 hloops.mem
    obtain ⟨hstored, hmember⟩ := (Network.mem_agentsIn hkeyed).1 hn
    exact ⟨n, hid ▸ hstored, hmember⟩

namespace Network

theorem curates_create {held : Info → Prop} (kind : NetworkKind) : Curates held (create kind) := by
  refine .bind (.minting fun m => m.precedes_spend .network) fun network => ?_
  exact .bind (.insert ⟨nofun, nofun⟩) fun _ => .pure network

theorem curates_muster {held : Info → Prop} (kind : NetworkKind) (agents : Nat)
    (order : List Nat) : Curates held (muster kind agents order) := by
  refine .bind (curates_create kind) fun network => ?_
  refine .bind (.mapM Node.curates_create _) fun created => ?_
  exact .bind (.mapM (fun a => network.curates_addAgent.through a) _) fun _ => .pure _

/-- A star with two agents, of which the first is the hub. -/
def twoStar : World Unit :=
  ((World.init Mint.still).begin 0 .readWrite .serializable ()).use 0 (muster .star 2 [0, 1])
    fun _ _ => ()

/-- The hub of the star is added once more, and gets a vector that leads from it to itself. -/
theorem loops_addAgent_twoStar :
    let star : Network := { id := ⟨0⟩, kind := .star, creationTime := .ofMoment .first }
    ∃ s, twoStar.sessions 0 = some s ∧ ∃ made scene,
      Holding.through (.numbered 1) star.addAgent { tx := s.tx, mint := twoStar.store.mint } =
        .ok made scene ∧
      ∃ v ∈ made, v.origin = v.destination := by
  intro star
  have hreachable : twoStar.Reachable :=
    .use 0 (@curates_muster (fun _ => True) .star 2 [0, 1]).asks _ (.begin 0 _ _ _ (.init _))
  have hloops : ∀ s ∈ twoStar.sessions 0,
      star.kind.Loops ((star.agentsIn s.tx.view).map (·.id)) (Node.numbered 1).id := by
    decide +kernel
  have hok : ∀ s ∈ twoStar.sessions 0, (outcome (Holding.through (.numbered 1) star.addAgent
      { tx := s.tx, mint := twoStar.store.mint })).isOk := by
    decide +kernel
  obtain ⟨s, hs⟩ := Option.isSome_iff_exists.1 (show (twoStar.sessions 0).isSome by decide +kernel)
  have hresult := hok s hs
  cases hmade : Holding.through (.numbered 1) star.addAgent
      { tx := s.tx, mint := twoStar.store.mint } with
  | error e scene =>
    rw [hmade] at hresult
    cases hresult
  | ok made scene =>
    have hiff := (hreachable.loops_addAgent hs star (.numbered 1) twoStar.store.mint).1 made scene
    exact ⟨s, hs, made, scene, hmade, (hiff hmade).2 (hloops s hs)⟩

/-- An agent is added twice to a network of which it is the only member. In a chain it is then led
to by itself, and in a fully connected network and in a star it is joined with itself both ways. -/
theorem muster_twice_loops :
    let begun : Scene :=
      { tx := ({} : Committed).opened ⟨1⟩ .readWrite .serializable, mint := .still }
    outcome (muster .chain 1 [0, 0] begun) = .ok [[], [(0, 0)]] ∧
    outcome (muster .fullyConnected 1 [0, 0] begun) = .ok [[], [(0, 0), (0, 0)]] ∧
    outcome (muster .star 1 [0, 0] begun) = .ok [[], [(0, 0), (0, 0)]] := by
  decide +kernel

end Network

end Propagation
