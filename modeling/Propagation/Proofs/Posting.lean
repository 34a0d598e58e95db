import Propagation.Proofs.Copying
import Mathlib.Data.List.Sort

/-!
# The order of posting

Beside a world one can keep a list of the transmissions that were sent in it, by whatever operation
and in whatever transaction, committed or not. The clock never goes back, so their times increase
along that list. What waits for a node is looked up in the order of these times. As long as
everything that waits was sent, it is therefore received in the order in which it was sent, whoever
sent it.

## Main definitions

* `Scene.Sends`: the transmissions that were sent on the way from one scene to another.
* `World.Posting`: the transmissions that were sent in a world.

## Main statements

* `Node.sends_transmit`: sending sends what it answers, and something also where it fails.
* `World.Posting.ordered`: the times of what was sent increase.
* `World.Reachable.receiveAll_replicator`: what it is to receive everything and to copy it.
-/

namespace Propagation

/-! ## What is sent -/

/-- The transmissions in the list, in this order, were sent on the way from the first scene to the
second. -/
inductive Scene.Sends : List Transmission → Scene → Scene → Prop
  | quiet {s s' : Scene} (h : s.mint.Precedes s'.mint) : Sends [] s s'
  | send {p : Info × Node} {m : Transmission} {s s' : Scene} (h : Node.send p s = .ok m s') :
    Sends [m] s s'
  | trans {ms ms' : List Transmission} {s s' s'' : Scene} (h : Sends ms s s')
    (h' : Sends ms' s' s'') : Sends (ms ++ ms') s s''

namespace Scene.Sends

/-- The times of `ms` come after those of what was sent before. -/
theorem dealt {ms : List Transmission} {s s' : Scene} (h : Sends ms s s') {times : List Timestamp}
    (htimes : s.mint.clock.Dealt times) :
    s'.mint.clock.Dealt (times ++ ms.map (·.transmitTime)) := by
  induction h generalizing times with
  | quiet h => simpa using htimes.mono h.reached
  | send h =>
    obtain ⟨rfl, -, -, rfl⟩ := Node.eq_of_send_ok h
    exact htimes.tick
  | trans _ _ ih ih' => simpa using ih' (ih htimes)

end Scene.Sends

/-- The hooks of the behaviors that come with the store create an info at most. -/
theorem Behavior.Provided.curates {b : Behavior} (hb : b.Provided) (held : Info → Prop) :
    (∀ n, Curates held (b.content n)) ∧ ∀ n, Curates held (b.recipients n) := by
  cases hb with
  | plain => exact ⟨fun _ => .pure _, fun _ => .pure _⟩
  | replicator => exact ⟨fun _ => .pure _, fun _ => .pure _⟩
  | constantSource infoType contents =>
    exact ⟨fun n => .bind (Info.curates_create n.id infoType contents) fun _ => .pure _,
      fun _ => .pure _⟩

namespace Node

/-- To `send` pairs one after the other sends what it answers; where it fails, it has sent the first
ones. -/
theorem sends_mapM_send (l : List (Info × Node)) (s : Scene) :
    ∃ ms, s.Sends ms (final (l.mapM send s)) ∧
      ∀ created s', l.mapM send s = .ok created s' → ms = created := by
  induction l generalizing s with
  | nil => exact ⟨[], .quiet (.refl _), fun created s' h => by cases h; rfl⟩
  | cons p l ih =>
    have hquiet := (@curates_send (fun _ => False) p).advances s
    rw [List.mapM_cons]
    cases hsend : send p s with
    | error e s₁ =>
      rw [hsend] at hquiet
      rw [Op.bind_of_error hsend]
      exact ⟨[], .quiet hquiet, nofun⟩
    | ok m s₁ =>
      obtain ⟨ms, hms, hcreated⟩ := ih s₁
      rw [Op.bind_of_ok hsend, Op.final_map]
      refine ⟨[m] ++ ms, .trans (.send hsend) hms, fun created s' h => ?_⟩
      obtain ⟨created', s₂, hrest, hpure⟩ := Op.of_bind_ok h
      rw [hcreated created' s₂ hrest]
      cases hpure
      rfl

/-- To `transmit` with a behavior that comes with the store sends what it answers. -/
theorem sends_transmit (n : Node) {b : Behavior} (hb : b.Provided) (c : Option Content)
    (r : Option Recipients) (s : Scene) :
    ∃ ms, s.Sends ms (final (n.transmit b c r s)) ∧
      ∀ created s', n.transmit b c r s = .ok created s' → ms = created := by
  obtain ⟨hcontent, hrecipients⟩ := hb.curates fun _ => False
  have hplan := (curates_plan hcontent hrecipients n c r).advances s
  rw [transmit]
  cases hpairs : n.plan b c r s with
  | error e s₁ =>
    rw [hpairs] at hplan
    rw [Op.bind_of_error hpairs]
    exact ⟨[], .quiet hplan, nofun⟩
  | ok pairs s₁ =>
    rw [hpairs] at hplan
    rw [Op.bind_of_ok hpairs]
    obtain ⟨ms, hms, hcreated⟩ := sends_mapM_send pairs s₁
    exact ⟨[] ++ ms, .trans (.quiet hplan) hms, hcreated⟩

end Node

namespace World

variable {α β : Type}

/-- The transmissions in the list, in this order, were sent in the world, in whatever transactions.
-/
inductive Posting : List Transmission → World α → Prop
  | init (mint : Mint) : Posting [] (init mint)
  | begin (name : Nat) (mode : TxMode) (isolation : Isolation) (note : α) {w : World α}
    {posted : List Transmission} : Posting posted w →
      Posting posted (w.begin name mode isolation note)
  | use {name : Nat} {β : Type} {op : Op β} (remark : Except Error β → α → α) {w : World α}
    {s : Session α} (hs : w.sessions name = some s) {posted ms : List Transmission}
    (hsends : Scene.Sends ms { tx := s.tx, mint := w.store.mint }
      (final (op { tx := s.tx, mint := w.store.mint }))) : Posting posted w →
      Posting (posted ++ ms) (w.use name op remark)
  | commit (name : Nat) {w : World α} {posted : List Transmission} : Posting posted w →
      Posting posted (w.commit name)
  | rollback (name : Nat) {w : World α} {posted : List Transmission} : Posting posted w →
      Posting posted (w.rollback name)
  | aside {f : Store → Store} {w : World α} (hf : w.store.mint.Precedes (f w.store).mint)
    {posted : List Transmission} : Posting posted w → Posting posted (w.aside f)

variable {w : World α} {posted : List Transmission}

/-- What was `posted` has times that were issued one after the other. -/
theorem Posting.dealt (h : w.Posting posted) :
    w.store.mint.clock.Dealt (posted.map (·.transmitTime)) := by
  induction h with
  | init mint => exact .nil _
  | begin name mode isolation note _ ih => exact ih
  | use remark hs hsends _ ih =>
    rw [mint_use hs, List.map_append]
    exact hsends.dealt ih
  | commit name _ ih =>
    rw [mint_commit]
    exact ih
  | rollback name _ ih => exact ih
  | aside hf _ ih => exact ih.mono hf.reached

/-- What `transmit` answers that it has sent was sent. -/
theorem Posting.transmit (h : w.Posting posted) {name : Nat} {s : Session α}
    (hs : w.sessions name = some s) {b : Behavior} (hb : b.Provided) (n : Node)
    (c : Option Content) (r : Option Recipients)
    (remark : Except Error (List Transmission) → α → α) :
    ∃ ms, (w.use name (n.transmit b c r) remark).Posting (posted ++ ms) ∧
      ∀ created, outcome (n.transmit b c r { tx := s.tx, mint := w.store.mint }) = .ok created →
        ms = created := by
  obtain ⟨ms, hsends, hms⟩ := n.sends_transmit hb c r { tx := s.tx, mint := w.store.mint }
  exact ⟨ms, .use remark hs hsends h, fun created hok => hms created _ (Op.eq_ok_of_outcome hok)⟩

end World

/-! ## What waits is in the order of sending -/

namespace World

variable {α : Type} {w : World α} {posted : List Transmission}

/-- As long as the clock has not got beyond the year 9999, the order of sending is that of times
and identifiers. -/
theorem Posting.ordered (h : w.Posting posted) (hplain : w.store.mint.clock.Plain) :
    posted.Pairwise fun m m' => m.chronological m' = .lt :=
  (List.pairwise_map.1 (h.dealt.increasing hplain)).imp Timestamp.compareLex_of_text_lt

/-- If all that waits for node `n` was `posted`, it waits in the order in which it was sent. -/
theorem Posting.sublist_waiting (h : w.Posting posted) (hplain : w.store.mint.clock.Plain)
    {t : Tables} (hkeyed : t.Keyed) {n : Node} (hposted : ∀ m ∈ t.waiting n, m ∈ posted) :
    (t.waiting n).Sublist posted := by
  have hordered := Tables.pairwise_waiting hkeyed (n := n)
  have : Std.Antisymm fun m m' : Transmission => m.chronological m' = .lt :=
    ⟨fun _ _ h h' => absurd h' (Std.OrientedCmp.not_lt_of_lt h)⟩
  exact List.sublist_of_subperm_of_pairwise
    (List.subperm_of_subset (nodup_of_pairwise_lt hordered) hposted) hordered (h.ordered hplain)

/-- To receive everything with a behavior that copies, in a transaction that may write and where no
info and no transformation has an identifier that is drawn: what waited for the node is received in
its order, which is that of sending if all of it was sent, and each of its infos is copied. Then
nothing waits for the node any more, and to receive once more brings nothing and stores nothing. -/
theorem Reachable.receiveAll_replicator (h : w.Reachable) {name : Nat} {s : Session α}
    (hs : w.sessions name = some s) (n : Node) (hmode : s.tx.mode = .readWrite)
    (hinfo : s.tx.view.Unused .info w.store.mint.ids
      (final (n.receiveAll .replicator { tx := s.tx, mint := w.store.mint })).mint.ids)
    (htransformation : s.tx.view.Unused .transformation w.store.mint.ids
      (final (n.receiveAll .replicator { tx := s.tx, mint := w.store.mint })).mint.ids)
    (hplain : (final (n.receiveAll .replicator
      { tx := s.tx, mint := w.store.mint })).mint.clock.Plain) :
    let waiting := s.tx.view.waiting n
    ∃ deliveries copies scene,
      n.receiveAll .replicator { tx := s.tx, mint := w.store.mint } = .ok deliveries scene ∧
      n.Receipt s.tx.view scene.tx.view waiting deliveries copies ∧
      (∀ posted, w.Posting posted → (∀ m ∈ waiting, m ∈ posted) → waiting.Sublist posted) ∧
      scene.tx.view.waiting n = [] ∧
      ∃ scene', n.receiveAll .replicator scene = .ok [] scene' ∧
        scene'.tx.view = scene.tx.view := by
  intro waiting
  have hkeyed := (h.sound.sessions name s hs).keyed_view
  have hclosed := h.closed_view hs
  obtain ⟨deliveries, copies, scene, hrun, hreceipt⟩ :=
    n.exists_receipt hmode hkeyed hclosed hinfo htransformation hplain
  have hprecedes := (@Node.curates_receiveAll (fun _ => False) n).advances
    { tx := s.tx, mint := w.store.mint }
  have hnothing := hreceipt.waiting_eq_nil hkeyed
  refine ⟨deliveries, copies, scene, hrun, hreceipt, fun posted hposting hposted => ?_, hnothing,
    _, Node.receiveAll_of_waiting_eq_nil hnothing, rfl⟩
  exact hposting.sublist_waiting (hplain.of_reached hprecedes.reached) hkeyed hposted

/-- A sender with two infos, and vectors that lead from it to two receivers. -/
def outpost : Op Unit := do
  let sender ← Node.create .source
  let first ← Node.create .agent
  let second ← Node.create .agent
  let _ ← Node.connect sender.id first.id
  let _ ← Node.connect sender.id second.id
  let _ ← Info.create sender.id "news" "rain"
  let _ ← Info.create sender.id "news" "snow"

theorem curates_outpost {held : Info → Prop} : Curates held outpost := by
  refine .bind (Node.curates_create _) fun sender => .bind (Node.curates_create _) fun first => ?_
  refine .bind (Node.curates_create _) fun second => .bind (Node.curates_connect _ _) fun _ => ?_
  refine .bind (Node.curates_connect _ _) fun _ => .bind (Info.curates_create _ _ _) fun _ => ?_
  exact .bind (Info.curates_create _ _ _) fun _ => .pure _

/-- The `outpost`, as long as nothing has been sent. -/
def quietOutpost : World (List Transmission) :=
  ((World.init Mint.still).begin 0 .readWrite .serializable []).use 0 outpost fun _ note => note

/-- The sender has sent all that it has to all that it can reach. -/
def busyOutpost : World (List Transmission) :=
  quietOutpost.use 0 ((Node.numbered 0).transmit .plain none none)
    fun answer _ => answer.toOption.getD []

/-- What was sent in `busyOutpost` is what the note says. -/
theorem posting_busyOutpost {s : Session (List Transmission)}
    (hs : busyOutpost.sessions 0 = some s) : busyOutpost.Posting s.note := by
  have hquiet := (@curates_outpost fun _ => False).advances
    { tx := (({ mint := .still } : Store).begin .readWrite .serializable).1, mint := .still }
  have hposting : quietOutpost.Posting [] := .use _ rfl (.quiet hquiet) (.begin 0 _ _ _ (.init _))
  obtain ⟨s₁, hs₁⟩ : ∃ s, quietOutpost.sessions 0 = some s := ⟨_, rfl⟩
  have hok : ∀ s₁ ∈ quietOutpost.sessions 0, (outcome ((Node.numbered 0).transmit .plain none none
      { tx := s₁.tx, mint := quietOutpost.store.mint })).isOk := by
    decide +kernel
  have hok := hok s₁ hs₁
  obtain ⟨ms, hms, heq⟩ := hposting.transmit hs₁ .plain (.numbered 0) none none
    fun answer _ => answer.toOption.getD []
  rw [busyOutpost, sessions_use_eq hs₁, Function.update_self] at hs
  cases hs
  rw [World.used]
  cases hcreated : outcome ((Node.numbered 0).transmit .plain none none
      { tx := s₁.tx, mint := quietOutpost.store.mint }) with
  | error e =>
    rw [hcreated] at hok
    cases hok
  | ok created =>
    exact heq created hcreated ▸ hms

/-- The first receiver receives the newer info before the older one, as they were sent. -/
theorem receiveAll_replicator_busyOutpost : ∃ s, busyOutpost.sessions 0 = some s ∧
    ∃ deliveries copies scene,
      (Node.numbered 1).receiveAll .replicator { tx := s.tx, mint := busyOutpost.store.mint } =
        .ok deliveries scene ∧
      (Node.numbered 1).Receipt s.tx.view scene.tx.view (s.tx.view.waiting (.numbered 1)) deliveries
        copies ∧
      (s.tx.view.waiting (.numbered 1)).map (·.info) = [⟨6⟩, ⟨5⟩] ∧
      (s.tx.view.waiting (.numbered 1)).Sublist s.note := by
  have hcurates := Behavior.Provided.plain.curates fun _ => False
  have hreachable : busyOutpost.Reachable :=
    .use 0 (Node.curates_transmit hcurates.1 hcurates.2 _ _ _).asks _
      (.use 0 (@curates_outpost fun _ => False).asks _ (.begin 0 _ _ _ (.init _)))
  obtain ⟨s, hs⟩ := Option.isSome_iff_exists.1
    (show (busyOutpost.sessions 0).isSome by decide +kernel)
  have hview : ∀ s ∈ busyOutpost.sessions 0, s.tx.mode = .readWrite ∧
      (s.tx.view.waiting (.numbered 1)).map (·.info) = [⟨6⟩, ⟨5⟩] ∧
      ∀ m ∈ s.tx.view.waiting (.numbered 1), m ∈ s.note := by
    decide +kernel
  have hmint : ∀ s ∈ busyOutpost.sessions 0,
      let after := (final ((Node.numbered 1).receiveAll .replicator
        { tx := s.tx, mint := busyOutpost.store.mint })).mint
      s.tx.view.Unused .info busyOutpost.store.mint.ids after.ids ∧
        s.tx.view.Unused .transformation busyOutpost.store.mint.ids after.ids ∧
        after.clock.Plain := by
    decide +kernel
  obtain ⟨hmode, hwaiting, hposted⟩ := hview s hs
  obtain ⟨hinfo, htransformation, hplain⟩ := hmint s hs
  obtain ⟨deliveries, copies, scene, hrun, hreceipt, hsublist, -⟩ :=
    hreachable.receiveAll_replicator hs (.numbered 1) hmode hinfo htransformation hplain
  exact ⟨s, hs, deliveries, copies, scene, hrun, hreceipt, hwaiting,
    hsublist _ (posting_busyOutpost hs) hposted⟩

end World

end Propagation
