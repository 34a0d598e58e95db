import Propagation.Proofs.History
import Propagation.Proofs.References
import Propagation.Proofs.Seniority
import Propagation.Info.Authoring
import Propagation.Lifecycle

/-!
# Copies and what is stored

Who asks for an operation on a record holds a copy of it, which may be older than what is stored, or
have been edited. Of the copy only the identifier is used, and of a node that joins a network also
the role: what the record becomes is made from the stored one, and the copy is replaced by it when
it has been stored. So the copy is what is stored where the operation has succeeded. Where it has
failed, neither has changed: whatever can be wrong is found before the record is stored, or by the
check with which it is stored.

To join a network goes on after that, since the node is then wired. This part cannot fail either: it
makes vectors between nodes that are there, in a transaction that has just stored something, so that
only an identifier could be taken.

## Main definitions

* `Mirrors`: the copy is what is stored, or nothing has changed, and when which is the case.
* `Network.Admits`: a network takes in what a copy says is a node of some role.
* `Scene.Mirrored`: what this means for each of the operations.

## Main statements

* `Mirrors.revise`: to store a new version and bring the copy up to date.
* `Node.mirrors_finish`, `Vector.mirrors_kill`, `Info.mirrors_write`, `Network.mirrors_join`: the
  operations.
* `World.Reachable.copies_mirror`: the copies mirror what is stored, in every view.
-/

namespace Propagation

variable {ρ α : Type}

/-- How an operation ended that was asked for through a copy, in some tables. If the stored record
was fit for it, this has become the next one, and so has the copy. If it was not fit, or there was
none, neither the copy nor the tables have changed. -/
inductive Mirrors (wrap : ρ → Record) (fit : ρ → Prop) (next : ρ → ρ) (copy : ρ) (t : Tables) :
    EStateM.Result Error (Holder ρ) α → Prop
  | ok {v : α} {h : Holder ρ} {stored : ρ}
    (hstored : t.find? (wrap copy).key = some (wrap stored)) (hfit : fit stored)
    (hnext : h.copy = next stored) (hkey : (wrap h.copy).key = (wrap copy).key)
    (hrow : h.scene.tx.view.find? (wrap copy).key = some (wrap h.copy)) :
    Mirrors wrap fit next copy t (.ok v h)
  | error {e : Error} {h : Holder ρ}
    (hunfit : ∀ stored, t.find? (wrap copy).key = some (wrap stored) → ¬ fit stored)
    (hcopy : h.copy = copy) (hview : h.scene.tx.view = t) :
    Mirrors wrap fit next copy t (.error e h)

namespace Mirrors

variable {wrap : ρ → Record} {fit : ρ → Prop} {next : ρ → ρ} {copy stored : ρ} {t : Tables}

/-- If the stored record is fit, the operation succeeds, and `copy` has become what is stored then.
-/
theorem exists_ok {r : EStateM.Result Error (Holder ρ) α} (h : Mirrors wrap fit next copy t r)
    (hwrap : wrap.Injective) (hstored : t.find? (wrap copy).key = some (wrap stored))
    (hfit : fit stored) : ∃ v h', r = .ok v h' ∧ h'.copy = next stored ∧
      h'.scene.tx.view.find? (wrap copy).key = some (wrap h'.copy) := by
  cases h with
  | @ok v h' stored' hstored' _ hnext _ hrow =>
    cases hwrap (Option.some.inj (hstored'.symm.trans hstored))
    exact ⟨v, h', rfl, hnext, hrow⟩
  | error hunfit => exact absurd hfit (hunfit stored hstored)

/-- If the operation fails, what is stored under the key of `copy` is not fit. -/
theorem unfit {e : Error} {h : Holder ρ} (hwrap : wrap.Injective)
    (hstored : t.find? (wrap copy).key = some (wrap stored)) (hunfit : ¬ fit stored)
    (hcopy : h.copy = copy) (hview : h.scene.tx.view = t) :
    Mirrors wrap fit next copy t (.error e h : EStateM.Result Error (Holder ρ) α) := by
  refine .error (fun stored' hstored' => ?_) hcopy hview
  cases hwrap (Option.some.inj (hstored'.symm.trans hstored))
  exact hunfit

section Stored

variable {h : Holder ρ} (hwrap : wrap.Injective) (hcopy : h.copy = copy)
  (hview : h.scene.tx.view = t)
include hwrap hcopy hview

/-- The record `new` is stored as a new version of what was stored, and the copy replaced by it, if
it is accepted and the transaction may write. -/
theorem revise {new : ρ} {r : Revision} (hr : r.record = wrap new)
    (hstored : t.find? (wrap copy).key = some (wrap stored)) (hnext : new = next stored)
    (hkey : (wrap new).key = (wrap copy).key)
    (hfit : fit stored ↔ r.accept t = .ok () ∧ h.scene.tx.mode = .readWrite) :
    Mirrors wrap fit next copy t
      ((do Access.revise r; Holding.refresh new : Holding ρ Unit) h) := by
  subst hcopy hview
  cases hrevise : Access.revise r h.scene.tx with
  | error e tx =>
    rw [Op.bind_of_error (Holding.access_of_error hrevise)]
    cases Access.recordIf_error hrevise
    refine unfit hwrap hstored (fun h => ?_) rfl rfl
    obtain ⟨haccept, hmode⟩ := hfit.1 h
    rw [Access.revise_of_accept haccept hmode] at hrevise
    cases hrevise
  | ok u tx =>
    rw [Op.bind_of_ok (Holding.access_of_ok hrevise)]
    obtain ⟨haccept, hmode, rfl⟩ := Access.recordIf_ok hrevise
    refine .ok hstored (hfit.2 ⟨haccept, hmode⟩) hnext hkey ?_
    change (h.scene.tx.view.put r.record).find? (wrap h.copy).key = some (wrap new)
    rw [hr, ← hkey]
    exact Tables.find?_put_self _ _

end Stored

/-- An operation that looks up the stored record first, under the key of the copy, mirrors it if
what follows does. -/
theorem require {h : Holder ρ} {f : Tables → Option ρ} {a : ρ → Holding ρ α}
    (hf : ∀ r, f h.scene.tx.view = some r ↔
      h.scene.tx.view.find? (wrap h.copy).key = some (wrap r))
    (ha : ∀ stored, h.scene.tx.view.find? (wrap h.copy).key = some (wrap stored) →
      Mirrors wrap fit next h.copy h.scene.tx.view
        (a stored { h with scene :=
          { h.scene with tx := h.scene.tx.noteRead (wrap h.copy).key } })) :
    Mirrors wrap fit next h.copy h.scene.tx.view
      ((do a (← Access.require (wrap h.copy).key f) : Holding ρ α) h) := by
  have hrequire := Access.require_apply (wrap h.copy).key f h.scene.tx
  cases hstored : f h.scene.tx.view with
  | none =>
    rw [hstored] at hrequire
    rw [Op.bind_of_error (Holding.access_of_error hrequire)]
    refine .error (fun stored hfind => ?_) rfl rfl
    cases hstored.symm.trans ((hf stored).2 hfind)
  | some stored =>
    rw [hstored] at hrequire
    rw [Op.bind_of_ok (Holding.access_of_ok hrequire)]
    exact ha stored ((hf stored).1 hstored)

end Mirrors

/-! ## Nodes that end -/

namespace Node

/-- The node with an end since `now`; one that has ended stays as it is. -/
def finished (target : NodeStatus) (now : Timestamp) (n : Node) : Node :=
  if n.isAlive then { n with status := target, timeOfDeath := some now } else n

/-- Node `n` may be ended in a transaction if it has the end `target`, or is alive and may be
written. -/
def MayFinish (target : NodeStatus) (tx : Transaction) (n : Node) : Prop :=
  n.status = target ∨ n.isAlive ∧ tx.mode = .readWrite

/-- A stored node that is alive may be replaced by the same node with the end `target`. -/
theorem accept_finished {t : Tables} (hclosed : t.Closed) {n : Node}
    (hstored : t.nodes[n.id]? = some n) (halive : n.isAlive) (target : NodeStatus)
    (now : Timestamp) :
    (Revision.node { n with status := target, timeOfDeath := some now }).accept t = .ok () := by
  have hreferences := hclosed _ _ (Tables.find?_node.2 hstored)
  simp only [Revision.accept, Revision.acceptNode, hstored, halive, Bool.not_true,
    Bool.false_and, Bool.false_eq_true, if_false]
  exact Tables.requireAll_ok_iff.2 hreferences

/-- The function `ended` gives the finished node, if the node is alive. -/
theorem ended_of_isAlive {target : NodeStatus} (htarget : target ≠ .alive) {n : Node}
    (halive : n.isAlive) (now : Timestamp) :
    n.ended target now = .ok (some (n.finished target now)) := by
  have hstatus : n.status = .alive := of_decide_eq_true halive
  rw [ended, if_neg htarget, if_pos hstatus, finished, if_pos halive]

/-- To `finish` a node mirrors what is stored. -/
theorem mirrors_finish (h : Holder Node) {target : NodeStatus} (htarget : target ≠ .alive)
    (hkeyed : h.scene.tx.view.Keyed) (hclosed : h.scene.tx.view.Closed) :
    Mirrors .node (MayFinish target h.scene.tx) (finished target (Minting.now h.scene.mint).1)
      h.copy h.scene.tx.view (finish target h) := by
  rw [finish, Op.bind_of_ok (Holding.copy_apply _)]
  refine .require (fun _ => Tables.find?_node.symm) fun stored hfind => ?_
  have hid : stored.id = h.copy.id := hkeyed.node_id (Tables.find?_node.1 hfind)
  rw [Op.bind_of_ok (Holding.minting_apply _ _)]
  generalize (Minting.now h.scene.mint).1 = now
  by_cases halive : stored.isAlive
  · have hfinished : stored.finished target now =
        { stored with status := target, timeOfDeath := some now } := if_pos halive
    have haccept := accept_finished hclosed (hid ▸ Tables.find?_node.1 hfind) halive target now
    have hother : stored.status ≠ target := fun h => htarget (h ▸ of_decide_eq_true halive)
    have hfit : MayFinish target h.scene.tx stored ↔
        (Revision.node (stored.finished target now)).accept h.scene.tx.view = .ok () ∧
          h.scene.tx.mode = .readWrite := by
      rw [hfinished]
      simp [MayFinish, hother, halive, haccept]
    have hkey : (Record.node (stored.finished target now)).key = .node h.copy.id := by
      rw [hfinished]
      exact congrArg Key.node hid
    rw [ended_of_isAlive htarget halive, Op.bind_of_ok (Holding.ofExcept_ok _ _)]
    -- the equations come last, since they would hold of more than one holder
    refine .revise (fun _ _ => Record.node.inj) ?_ ?_ ?_ hfind ?_ hkey ?_
    exacts [rfl, rfl, rfl, rfl, hfit]
  · have hended : stored.finished target now = stored := if_neg halive
    have hnot : stored.status ≠ .alive := fun h => halive (decide_eq_true h)
    rw [ended, if_neg htarget, if_neg hnot]
    by_cases hsame : stored.status = target
    · rw [if_pos hsame]
      exact .ok hfind (.inl hsame) hended.symm (congrArg Key.node hid) hfind
    · rw [if_neg hsame]
      refine .unfit (fun _ _ => Record.node.inj) hfind ?_ rfl rfl
      simp [MayFinish, hsame, halive]

end Node

/-! ## Vectors that die -/

namespace Vector

/-- To `kill` a vector mirrors what is stored. -/
theorem mirrors_kill (h : Holder Vector) (hkeyed : h.scene.tx.view.Keyed) :
    Mirrors .vector (fun v => v.isAlive → h.scene.tx.mode = .readWrite)
      (fun v => (v.markDead (Minting.now h.scene.mint).1).getD v) h.copy h.scene.tx.view
      (kill h) := by
  rw [kill, Op.bind_of_ok (Holding.copy_apply _)]
  refine .require (fun _ => Tables.find?_vector.symm) fun stored hfind => ?_
  have hid : stored.id = h.copy.id := Key.vector.inj (hkeyed _ _ hfind)
  rw [Op.bind_of_ok (Holding.minting_apply _ _)]
  generalize (Minting.now h.scene.mint).1 = now
  by_cases halive : stored.isAlive
  · have hdead : stored.markDead now =
        some { stored with status := .dead, timeOfDeath := some now } := if_pos halive
    have hfit : (stored.isAlive → h.scene.tx.mode = .readWrite) ↔
        (Revision.vector { stored with status := .dead, timeOfDeath := some now }).accept
          h.scene.tx.view = .ok () ∧ h.scene.tx.mode = .readWrite := by
      simp [Revision.accept, Revision.acceptVector, hid ▸ Tables.find?_vector.1 hfind, halive]
    rw [hdead]
    refine .revise (fun _ _ => Record.vector.inj) ?_ ?_ ?_ hfind ?_ (congrArg Key.vector hid) ?_
    exacts [rfl, rfl, rfl, (congrArg (Option.getD · stored) hdead).symm, hfit]
  · have hdead : stored.markDead now = none := if_neg halive
    rw [hdead]
    refine .ok hfind (fun h => absurd h halive) ?_ (congrArg Key.vector hid) hfind
    rw [hdead]
    rfl

end Vector

/-! ## Infos that are written -/

namespace Info

/-- To `write` the contents of an info mirrors what is stored. -/
theorem mirrors_write (h : Holder Info) (hkeyed : h.scene.tx.view.Keyed) (contents : String) :
    Mirrors .info (fun i => i.contents = none ∧ h.scene.tx.mode = .readWrite)
      (fun i => { i with contents := some contents }) h.copy h.scene.tx.view
      (write contents h) := by
  rw [write, Op.bind_of_ok (Holding.copy_apply _)]
  refine .require (fun _ => Tables.find?_info.symm) fun stored hfind => ?_
  have hid : stored.id = h.copy.id := Key.info.inj (hkeyed _ _ hfind)
  cases hcontents : stored.contents with
  | some old =>
    have hwritten : stored.withContents contents = .error (.contentsWritten stored.id) := by
      simp [withContents, hasContents, hcontents]
    rw [hwritten, Op.bind_of_error (Holding.ofExcept_error _ _)]
    exact .unfit (fun _ _ => Record.info.inj) hfind (by simp [hcontents]) rfl rfl
  | none =>
    have hwritten : stored.withContents contents =
        .ok { stored with contents := some contents } := by
      simp [withContents, hasContents, hcontents]
    have hfit : stored.contents = none ∧ h.scene.tx.mode = .readWrite ↔
        (Revision.info { stored with contents := some contents }).accept h.scene.tx.view = .ok () ∧
          h.scene.tx.mode = .readWrite := by
      simp [Revision.accept, Revision.acceptInfo, hid ▸ Tables.find?_info.1 hfind, hasContents,
        hcontents]
    rw [hwritten, Op.bind_of_ok (Holding.ofExcept_ok _ _)]
    refine .revise (fun _ _ => Record.info.inj) ?_ ?_ ?_ hfind ?_ (congrArg Key.info hid) ?_
    exacts [rfl, rfl, rfl, rfl, hfit]

end Info

/-! ## Nodes that join a network -/

namespace Network

/-- The `network` takes a node in, as what `copy` says it is, in the transaction `tx`. -/
structure Admits (network : Network) (role : NodeRole) (copy : Node) (tx : Transaction) : Prop where
  role_eq : copy.kind.role = role
  there : tx.view.has (.network network.id)
  mode : tx.mode = .readWrite

section Join

variable {network : Network} {role : NodeRole} {h : Holder Node}

/-- To `adopt` a node fails without a trace, or the node is stored and the network takes it in. -/
theorem adopt_or_admits (hkeyed : h.scene.tx.view.Keyed) :
    (∃ e tx', network.adopt role h = .error e { h with scene := { h.scene with tx := tx' } } ∧
      tx'.view = h.scene.tx.view) ∨
    ∃ stored, h.scene.tx.view.nodes[h.copy.id]? = some stored ∧
      network.Admits role h.copy h.scene.tx := by
  rcases @adopt_cases network role h.copy h.scene.tx h.scene.mint hkeyed with
    ⟨e, tx', hadopt, hview, -⟩ | ⟨stored, hrole, -, hstored, hnetwork, hmode⟩
  · exact .inl ⟨e, tx', hadopt, hview⟩
  · exact .inr ⟨stored, hstored, hrole, hnetwork, hmode⟩

/-- A node of `enroll` is stored as a member. -/
theorem nodes_enroll {stored : Node} {i : NodeId} {tx : Transaction} (hid : stored.id = i) :
    (network.enroll stored tx).view.nodes[i]? = some (network.member stored) := by
  rw [enroll, Transaction.view_store, Tables.nodes_put_node, if_pos hid]
  rfl

/-- An operation that fails without a trace unless the network takes the node in, and otherwise
leaves the copy and what is stored as the member. -/
theorem mirrors_join {a : Holding Node α}
    (hcases : (∃ e h', a h = .error e h' ∧ h'.copy = h.copy ∧
        h'.scene.tx.view = h.scene.tx.view) ∨
      ∃ stored, h.scene.tx.view.nodes[h.copy.id]? = some stored ∧
        network.Admits role h.copy h.scene.tx)
    (hok : ∀ stored, h.scene.tx.view.nodes[h.copy.id]? = some stored →
      network.Admits role h.copy h.scene.tx → ∃ v h', a h = .ok v h' ∧
        h'.copy = network.member stored ∧ h'.copy.id = h.copy.id ∧
        h'.scene.tx.view.nodes[h.copy.id]? = some h'.copy) :
    Mirrors .node (fun _ => network.Admits role h.copy h.scene.tx) network.member h.copy
      h.scene.tx.view (a h) := by
  rcases hcases with ⟨e, h', hrun, hcopy, hview⟩ | ⟨stored, hstored, hadmits⟩
  · rw [hrun]
    refine .error (fun stored hfind hadmits => ?_) hcopy hview
    obtain ⟨v, h', hrun', -⟩ := hok stored (Tables.find?_node.1 hfind) hadmits
    cases hrun.symm.trans hrun'
  · obtain ⟨v, h', hrun, hcopy, hid, hrow⟩ := hok stored hstored hadmits
    rw [hrun]
    exact .ok (Tables.find?_node.2 hstored) hadmits hcopy (congrArg Key.node hid)
      (Tables.find?_node.2 hrow)

variable (network h) (hkeyed : h.scene.tx.view.Keyed)
include hkeyed

/-- To `addSource` mirrors what is stored. -/
theorem mirrors_addSource :
    Mirrors .node (fun _ => network.Admits .source h.copy h.scene.tx) network.member h.copy
      h.scene.tx.view (network.addSource h) := by
  refine mirrors_join ?_ fun stored hstored hadmits => ?_
  · exact (adopt_or_admits hkeyed).imp_left fun ⟨e, tx', hadopt, hview⟩ =>
      ⟨e, _, hadopt, rfl, hview⟩
  · have hid : stored.id = h.copy.id := hkeyed.node_id hstored
    exact ⟨_, _, adopt_ok hadmits.role_eq hid hstored hadmits.there hadmits.mode, rfl, hid,
      nodes_enroll hid⟩

/-- To `addSourceToAll` mirrors what is stored, if identifiers are unused. -/
theorem mirrors_addSourceToAll (hunused : h.scene.tx.view.Unused .vector h.scene.mint.ids
      (final (network.addSourceToAll h)).scene.mint.ids) :
    Mirrors .node (fun _ => network.Admits .source h.copy h.scene.tx) network.member h.copy
      h.scene.tx.view (network.addSourceToAll h) := by
  refine mirrors_join ?_ fun stored hstored hadmits => ?_
  · refine (adopt_or_admits hkeyed).imp_left fun ⟨e, tx', hadopt, hview⟩ => ?_
    exact ⟨e, _, Op.bind_of_error hadopt, rfl, hview⟩
  · have hid : stored.id = h.copy.id := hkeyed.node_id hstored
    refine ⟨_, _, addSourceToAll_ok hadmits.role_eq hid hstored hadmits.there hadmits.mode hkeyed
      hunused, rfl, hid, ?_⟩
    rw [Transaction.nodes_storeAll]
    exact nodes_enroll hid

/-- To `addAgent` mirrors what is stored, if identifiers are unused. -/
theorem mirrors_addAgent (hunused : h.scene.tx.view.Unused .vector h.scene.mint.ids
      (final (network.addAgent h)).scene.mint.ids) :
    Mirrors .node (fun _ => network.Admits .agent h.copy h.scene.tx) network.member h.copy
      h.scene.tx.view (network.addAgent h) := by
  refine mirrors_join ?_ fun stored hstored hadmits => ?_
  · rcases @addAgent_adopts network h.copy h.scene.tx h.scene.mint hkeyed with
      ⟨e, tx', hadd, hview, -⟩ | ⟨stored, hrole, -, hstored, hnetwork, hmode⟩
    · exact .inl ⟨e, _, hadd, rfl, hview⟩
    · exact .inr ⟨stored, hstored, hrole, hnetwork, hmode⟩
  · have hid : stored.id = h.copy.id := hkeyed.node_id hstored
    refine ⟨_, _, addAgent_ok hadmits.role_eq hid hstored hadmits.there hadmits.mode hkeyed hunused,
      rfl, hid, ?_⟩
    rw [Transaction.nodes_storeAll]
    exact nodes_enroll hid

end Join

end Network

/-! ## Every view -/

/-- Through whatever copy an operation is asked for in the scene `s`, the copy mirrors what is
stored. Where a node is wired, no vector may have an identifier that is drawn for this. -/
structure Scene.Mirrored (s : Scene) : Prop where
  kill : ∀ n : Node, Mirrors .node (Node.MayFinish .dead s.tx)
    (Node.finished .dead (Minting.now s.mint).1) n s.tx.view (Node.kill { copy := n, scene := s })
  fail : ∀ n : Node, Mirrors .node (Node.MayFinish .failed s.tx)
    (Node.finished .failed (Minting.now s.mint).1) n s.tx.view (Node.fail { copy := n, scene := s })
  killVector : ∀ v : Vector, Mirrors .vector (fun stored => stored.isAlive → s.tx.mode = .readWrite)
    (fun stored => (stored.markDead (Minting.now s.mint).1).getD stored) v s.tx.view
    (Vector.kill { copy := v, scene := s })
  write : ∀ (i : Info) (contents : String),
    Mirrors .info (fun stored => stored.contents = none ∧ s.tx.mode = .readWrite)
      (fun stored => { stored with contents := some contents }) i s.tx.view
      (Info.write contents { copy := i, scene := s })
  addSource : ∀ (network : Network) (n : Node),
    Mirrors .node (fun _ => network.Admits .source n s.tx) network.member n s.tx.view
      (network.addSource { copy := n, scene := s })
  addSourceToAll : ∀ (network : Network) (n : Node),
    s.tx.view.Unused .vector s.mint.ids
      (final (network.addSourceToAll { copy := n, scene := s })).scene.mint.ids →
    Mirrors .node (fun _ => network.Admits .source n s.tx) network.member n s.tx.view
      (network.addSourceToAll { copy := n, scene := s })
  addAgent : ∀ (network : Network) (n : Node),
    s.tx.view.Unused .vector s.mint.ids
      (final (network.addAgent { copy := n, scene := s })).scene.mint.ids →
    Mirrors .node (fun _ => network.Admits .agent n s.tx) network.member n s.tx.view
      (network.addAgent { copy := n, scene := s })

namespace World

/-- In every view of a world that can come about, whatever the mint gives out, the copies through
which operations are asked for mirror what is stored. -/
theorem Reachable.copies_mirror {w : World α} (hw : w.Reachable) {name : Nat} {s : Session α}
    (hs : w.sessions name = some s) (mint : Mint) :
    Scene.Mirrored { tx := s.tx, mint } := by
  have hkeyed : s.tx.view.Keyed := (hw.sound.sessions name s hs).keyed_view
  have hclosed : s.tx.view.Closed := hw.closed_view hs
  let scene : Scene := { tx := s.tx, mint }
  have hended : ∀ target ≠ .alive, ∀ n : Node, Mirrors .node (Node.MayFinish target s.tx)
      (Node.finished target (Minting.now mint).1) n s.tx.view
      (Node.finish target { copy := n, scene }) :=
    fun _ htarget n => Node.mirrors_finish ⟨n, scene⟩ htarget hkeyed hclosed
  exact {
    kill := hended .dead nofun
    fail := hended .failed nofun
    killVector := fun v => Vector.mirrors_kill ⟨v, scene⟩ hkeyed
    write := fun i contents => Info.mirrors_write ⟨i, scene⟩ hkeyed contents
    addSource := fun network n => network.mirrors_addSource ⟨n, scene⟩ hkeyed
    addSourceToAll := fun network n => network.mirrors_addSourceToAll ⟨n, scene⟩ hkeyed
    addAgent := fun network n => network.mirrors_addAgent ⟨n, scene⟩ hkeyed }

/-- A fully connected network with one agent, another agent that has yet to join it, and a vector
between them. -/
def foyer : List Event :=
  [.begin 0 .readWrite .serializable, .ask 0 (.insert (.network network)),
    .ask 0 (.insert (.node (network.member (.numbered 2)))), .ask 0 (.insert (.node (.numbered 3))),
    .ask 0 (.insert (.vector (.numbered 5 2 3)))]
where
  network : Network := { id := ⟨1⟩, kind := .fullyConnected, creationTime := .ofMoment .first }
  /-- A copy of the second agent that calls it dead, and a member of a network that is not there. -/
  edited : Node := { Node.numbered 3 with status := .dead, network := some ⟨7⟩ }

/-- The edited copy is as good as any other: it can be killed, and it can join the network, which
draws two identifiers that no vector has. Each time it is what is stored afterwards. -/
theorem copies_mirror_foyer : ∃ s, (run .still foyer).sessions 0 = some s ∧
    (∃ u h, Node.kill { copy := foyer.edited, scene := { tx := s.tx, mint := .still } } = .ok u h ∧
      h.copy.network = none ∧ h.scene.tx.view.find? (.node ⟨3⟩) = some (.node h.copy)) ∧
    ∃ made h,
      foyer.network.addAgent { copy := foyer.edited, scene := { tx := s.tx, mint := .still } } =
        .ok made h ∧
      h.copy.isAlive ∧ h.scene.tx.view.find? (.node ⟨3⟩) = some (.node h.copy) := by
  have hview : ∀ s ∈ (run .still foyer).sessions 0,
      s.tx.view.find? (.node ⟨3⟩) = some (.node (.numbered 3)) ∧ s.tx.mode = .readWrite ∧
      s.tx.view.has (.network ⟨1⟩) ∧ s.tx.view.keys .vector = [.vector ⟨5⟩] ∧
      (final (foyer.network.addAgent { copy := foyer.edited, scene :=
        { tx := s.tx, mint := .still } })).scene.mint.ids.given = [0, 1] := by
    decide +kernel
  obtain ⟨s, hs⟩ : ∃ s, (run .still foyer).sessions 0 = some s := ⟨_, rfl⟩
  obtain ⟨hstored, hmode, hthere, hkeys, hgiven⟩ := hview s hs
  have hmirrored := (reachable_run .still foyer).copies_mirror hs .still
  have hunused : s.tx.view.Unused .vector Mint.still.ids (final (foyer.network.addAgent
      { copy := foyer.edited, scene := { tx := s.tx, mint := .still } })).scene.mint.ids :=
    ⟨[0, 1], hgiven, by decide, by rw [hkeys]; decide⟩
  obtain ⟨u, h, hkill, hcopy, hrow⟩ := (hmirrored.kill foyer.edited).exists_ok
    (fun _ _ => Record.node.inj) hstored (.inr ⟨rfl, hmode⟩)
  obtain ⟨made, h', hadd, hcopy', hrow'⟩ := (hmirrored.addAgent foyer.network foyer.edited
    hunused).exists_ok (fun _ _ => Record.node.inj) hstored ⟨rfl, hthere, hmode⟩
  exact ⟨s, hs, ⟨u, h, hkill, hcopy ▸ rfl, hrow⟩, made, h', hadd, hcopy' ▸ rfl, hrow'⟩

end World

end Propagation
