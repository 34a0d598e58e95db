import Propagation.Proofs.Descent
import Propagation.Proofs.Integrity

/-!
# What a plan says

A node works off the names of its plan from a list of what is still to do. What it finds is what
one reads from left to right: a list of names stands for what its names stand for, one after the
other, and the first name that may not be used decides how the reading fails. What is named again is
left out, and every info goes to every node.

## Main definitions

* `Tables.authored`, `Tables.live`, `Tables.reached`: what a choice of infos or of nodes stands for.
* `Content.read`, `Recipients.read`: what names stand for, read from left to right.
* `Tables.planned`: which infos go to which nodes.
* `gather`: what is found, added to what was found before.

## Main statements

* `Node.answers_resolveContent`, `Node.answers_resolveRecipients`: working off a list of names is
  reading it.
* `World.plan_eq_planned`: a plan whose names are given is the one that is read.
-/

namespace Propagation

open Std (ExtTreeMap)

/-! ## Reading names -/

namespace Tables

/-- The infos that node `n` authored and `f` chooses, the latest first. -/
def authored (t : Tables) (n : NodeId) (f : InfoFilter) : List Info :=
  (sort Info.chronological ((rows t.infos).filter fun i => i.origin = n && f.matches i)).reverse

theorem mem_authored {t : Tables} {n : NodeId} {f : InfoFilter} {i : Info} :
    i ∈ t.authored n f ↔ i ∈ rows t.infos ∧ i.origin = n ∧ f.matches i := by
  simp [authored]

/-- The vectors alive that leave node `n`, the earliest first. -/
def live (t : Tables) (n : NodeId) : List Vector :=
  sort Vector.chronological ((rows t.vectors).filter fun v => v.origin = n && v.isAlive)

/-- What a search for the vectors alive that leave node `n` finds. -/
def foundAlive (t : Tables) (n : NodeId) : List Vector :=
  t.selectVectors { origin := some n, status := some .alive }

/-- In tables whose indexes are in step, a search finds the vectors of `live`. -/
theorem foundAlive_eq_live {t : Tables} (ht : t.Intact) (hlinked : t.Linked) (n : NodeId) :
    t.foundAlive n = t.live n := by
  rw [foundAlive, selectVectors_eq hlinked fun i v hv => (ht.vector i v hv).1, live]
  congr 2
  funext v
  simp [VectorQuery.matches, Vector.isAlive]

/-- The nodes to which `vectors` lead and which `f` chooses, each at its first vector. -/
def reached (t : Tables) (vectors : List Vector) (f : NodeFilter) : List Node :=
  (distinct (·.id) (vectors.filterMap fun v => t.nodes[v.destination]?)).filter f.matches

end Tables

mutual

/-- The infos that a content stands for, where `n` sends it. -/
def Content.read (t : Tables) (n : NodeId) : Content → Except Error (List Info)
  | .info i => if i.origin = n then .ok [i] else .error (.notOrigin n i.id)
  | .ofType f => .ok (t.authored n f)
  | .many items => Content.readAll t n items

/-- The infos that several contents stand for, one content after the other. -/
def Content.readAll (t : Tables) (n : NodeId) : List Content → Except Error (List Info)
  | [] => .ok []
  | c :: rest => do
    let infos ← c.read t n
    let more ← Content.readAll t n rest
    return infos ++ more

end

mutual

/-- The nodes that recipients stand for, where `n` sends and `vectors` are alive and leave it. -/
def Recipients.read (t : Tables) (n : NodeId) (vectors : List Vector) :
    Recipients → Except Error (List Node)
  | .node m =>
    if vectors.any (·.destination = m.id) then .ok [m] else .error (.notConnected n m.id)
  | .ofType f => .ok (t.reached vectors f)
  | .many items => Recipients.readAll t n vectors items

/-- The nodes that several recipients stand for, one after the other. -/
def Recipients.readAll (t : Tables) (n : NodeId) (vectors : List Vector) :
    List Recipients → Except Error (List Node)
  | [] => .ok []
  | r :: rest => do
    let nodes ← r.read t n vectors
    let more ← Recipients.readAll t n vectors rest
    return nodes ++ more

end

/-- The list itself, or the error `e` if it is empty. -/
def nonempty {α : Type} (e : Error) : List α → Except Error (List α)
  | [] => .error e
  | xs => .ok xs

/-- Which infos go to which nodes: all content is read before the recipients are, nothing is sent
twice, and every info goes to every node, one info after the other. -/
def Tables.planned (t : Tables) (n : NodeId) (c : Content) (r : Recipients) :
    Except Error (List (Info × Node)) := do
  let infos ← nonempty (.nothingToSend n) (distinct (·.id) (← c.read t n))
  let nodes ← nonempty (.nobodyToReach n) (distinct (·.id) (← r.read t n (t.live n)))
  return infos.flatMap fun i => nodes.map fun m => (i, m)

/-! ## Gathering -/

section Gather

variable {α β : Type} [DecidableEq β] {key : α → β}

/-- What was found before, and after it what is new of `xs`. -/
def gather (key : α → β) (found xs : List α) : List α :=
  found ++ distinctFrom key (found.map key) xs

theorem gather_nil (found : List α) : gather key found [] = found := List.append_nil found

/-- What `gather` finds first is in front, and what comes after it is compared with it. -/
theorem gather_cons (found : List α) (x : α) (xs : List α) :
    gather key found (x :: xs) =
      gather key (if key x ∈ found.map key then found else found ++ [x]) xs := by
  rw [gather, distinctFrom]
  by_cases hx : key x ∈ found.map key
  · rw [if_pos hx, if_pos hx, gather]
  · have hseen : ∀ k, k ∈ key x :: found.map key ↔ k ∈ (found ++ [x]).map key := by
      simp [or_comm]
    rw [if_neg hx, if_neg hx, gather, distinctFrom_congr hseen, List.append_assoc,
      List.singleton_append]

/-- To take up `x` if it is not there yet is to gather it. -/
theorem gather_singleton (key : α → β) (found : List α) (x : α) :
    (if found.any (key · = key x) then found else found ++ [x]) = gather key found [x] := by
  have hany : found.any (key · = key x) = true ↔ key x ∈ found.map key := by simp
  rw [gather_cons, gather_nil]
  simp only [hany]

theorem gather_append (found xs ys : List α) :
    gather key found (xs ++ ys) = gather key (gather key found xs) ys := by
  induction xs generalizing found with
  | nil => rw [List.nil_append, gather_nil]
  | cons x xs ih => rw [List.cons_append, gather_cons, ih, ← gather_cons]

/-- What is read in two parts, `r` and `s`, is gathered in two parts. -/
theorem map_gather_bind (r s : Except Error (List α)) (found : List α) :
    (do return (← r) ++ (← s) : Except Error (List α)).map (gather key found) =
      r.map (gather key found) >>= fun found => s.map (gather key found) := by
  cases r with
  | error e => rfl
  | ok xs =>
    cases s with
    | error e => rfl
    | ok ys => exact congrArg Except.ok (gather_append found xs ys)

/-- What `r` reads at once is found without repetitions. -/
theorem map_gather_bind_nil (r : Except Error (List α)) :
    (r.map (gather key []) >>= fun found => (Except.ok []).map (gather key found)) =
      r.map (distinct key) := by
  cases r with
  | error e => rfl
  | ok xs => exact congrArg Except.ok (gather_nil (distinct key xs))

/-- To `take` up one after the other is to gather all. -/
theorem foldlM_gather (key : α → β) {take : List α → α → Except Error (List α)} (xs found : List α)
    (h : ∀ x ∈ xs, ∀ found, take found x = .ok (gather key found [x])) :
    xs.foldlM take found = .ok (gather key found xs) := by
  induction xs generalizing found with
  | nil => rw [gather_nil]; rfl
  | cons x xs ih =>
    obtain ⟨hx, hxs⟩ := List.forall_mem_cons.1 h
    have hcons : gather key found (x :: xs) = gather key (gather key found [x]) xs :=
      gather_append found [x] xs
    rw [List.foldlM_cons, hx, hcons]
    exact ih _ hxs

end Gather

/-! ## Lists of names -/

theorem Content.readAll_append (t : Tables) (n : NodeId) (a b : List Content) :
    readAll t n (a ++ b) = do return (← readAll t n a) ++ (← readAll t n b) := by
  induction a with
  | nil =>
    rw [List.nil_append, readAll]
    cases readAll t n b <;> rfl
  | cons c a ih =>
    rw [List.cons_append, readAll, readAll, ih]
    simp only [bind_assoc, pure_bind, List.append_assoc]

theorem Recipients.readAll_append (t : Tables) (n : NodeId) (vectors : List Vector)
    (a b : List Recipients) : readAll t n vectors (a ++ b) = do
      return (← readAll t n vectors a) ++ (← readAll t n vectors b) := by
  induction a with
  | nil =>
    rw [List.nil_append, readAll]
    cases readAll t n vectors b <;> rfl
  | cons r a ih =>
    rw [List.cons_append, readAll, readAll, ih]
    simp only [bind_assoc, pure_bind, List.append_assoc]

theorem Content.map_gather_readAll_singleton (t : Tables) (n : NodeId) (c : Content) :
    (readAll t n [c]).map (gather (·.id) []) = (c.read t n).map (distinct (·.id)) := by
  rw [readAll, readAll, map_gather_bind, map_gather_bind_nil]

theorem Recipients.map_gather_readAll_singleton (t : Tables) (n : NodeId) (vectors : List Vector)
    (r : Recipients) : (readAll t n vectors [r]).map (gather (·.id) []) =
      (r.read t n vectors).map (distinct (·.id)) := by
  rw [readAll, readAll, map_gather_bind, map_gather_bind_nil]

namespace Node

/-! ## Content -/

variable {t : Tables} (ht : t.Intact)

/-- An info `i` of the node's own is gathered by `takeInfo`. -/
theorem takeInfo_of_origin {n : Node} {i : Info} (hi : i.origin = n.id) (found : List Info) :
    n.takeInfo found i = .ok (gather (·.id) found [i]) := by
  rw [takeInfo, if_neg (not_not.2 hi), ← gather_singleton]
  split <;> rfl

theorem takeInfo_eq (n : Node) (found : List Info) (i : Info) :
    n.takeInfo found i = (Content.read t n.id (.info i)).map (gather (·.id) found) := by
  rw [Content.read]
  by_cases hi : i.origin = n.id
  · rw [takeInfo_of_origin hi, if_pos hi]
    rfl
  · rw [takeInfo, if_pos hi, if_neg hi]
    rfl

include ht

/-- The infos that a search finds and `f` chooses are those of `authored`. -/
theorem filter_selectInfos (n : Node) (f : InfoFilter) :
    (t.selectInfos { origin := some n.id, newestFirst := true }).filter f.matches =
      t.authored n.id f :=
  Tables.selectInfos_filter (fun i m hm => (ht.info i m hm).1) n.id f.matches

/-- To work off the contents in `work` is to read them one after the other and to gather what is
read. -/
theorem answers_resolveContent (n : Node) (work : List Content) (found : List Info)
    {tx : Transaction} (htx : tx.view = t) :
    (n.resolveContent work found).Answers tx
      ((Content.readAll t n.id work).map (gather (·.id) found)) := by
  induction work, found using Node.resolveContent.induct generalizing tx with
  | case1 found =>
    have hnil : (Content.readAll t n.id []).map (gather (·.id) found) = .ok found := by
      rw [Content.readAll, Except.map, gather_nil]
    rw [resolveContent, hnil]
    exact .pure found tx
  | case2 found i rest ih =>
    rw [resolveContent, Content.readAll, map_gather_bind, takeInfo_eq]
    exact (Access.Answers.ofExcept _ tx).bind fun found tx' _ hnoted =>
      ih found (hnoted.view_eq.trans htx)
  | case3 found f rest ih =>
    rw [resolveContent, Content.readAll, map_gather_bind]
    refine (Access.answers_infos _ tx).bind_of_ok fun tx' hnoted => ?_
    have htake : (t.authored n.id f).foldlM n.takeInfo found =
        (Content.read t n.id (.ofType f)).map (gather (·.id) found) := by
      rw [Content.read, Except.map, foldlM_gather Info.id]
      intro i hi found
      exact takeInfo_of_origin ((Tables.mem_authored.1 hi).2.1) found
    rw [htx, filter_selectInfos ht, htake]
    exact (Access.Answers.ofExcept _ tx').bind fun found tx'' _ hnoted' =>
      ih found (hnoted'.view_eq.trans (hnoted.view_eq.trans htx))
  | case4 found items rest ih =>
    have hread : Content.readAll t n.id (.many items :: rest) =
        Content.readAll t n.id (items ++ rest) := by
      rw [Content.readAll_append, Content.readAll, Content.read]
    rw [resolveContent, hread]
    exact ih htx

/-! ## Recipients -/

omit ht in
/-- A live vector leads from `n` to `m` if one is among those of `foundAlive`. -/
theorem answers_leadsToAlive (n m : Node) {tx : Transaction} (htx : tx.view = t) :
    (n.leadsToAlive m).Answers tx (.ok ((t.foundAlive n.id).any (·.destination = m.id))) := by
  have hcount : (n.leadsToAlive m).Answers tx (.ok (0 < (tx.view.selectVectors
      { origin := some n.id, destination := some m.id, status := some .alive }).length)) :=
    (Access.answers_countVectors _ tx).map fun count => (0 < count : Bool)
  have hany : 0 < (t.selectVectors
      { origin := some n.id, destination := some m.id, status := some .alive }).length ↔
        (t.foundAlive n.id).any (·.destination = m.id) := by
    rw [List.length_pos_iff_exists_mem, List.any_eq_true]
    simp only [Tables.foundAlive, Tables.selectVectors, mem_sort, List.mem_filter, Tables.vectorIds,
      VectorQuery.matches, Option.all_some, Option.all_none, Bool.and_eq_true, decide_eq_true_eq]
    grind
  simpa only [htx, hany, Bool.decide_eq_true] using hcount

omit ht in
/-- A node `m` to which none of the live vectors leads is refused, and any other is gathered. -/
theorem answers_takeRecipient (n : Node) (found : List Node) (m : Node) {tx : Transaction}
    (htx : tx.view = t) :
    (n.takeRecipient found m).Answers tx
      ((Recipients.read t n.id (t.foundAlive n.id) (.node m)).map (gather (·.id) found)) := by
  refine (n.answers_leadsToAlive m htx).bind_of_ok fun tx' _ => ?_
  rw [Recipients.read]
  by_cases hany : (t.foundAlive n.id).any (·.destination = m.id)
  · rw [if_pos hany, if_pos hany, gather_singleton Node.id]
    exact .pure _ tx'
  · rw [if_neg hany, if_neg hany]
    exact .throw _ tx'

include ht

/-- The nodes of `liveSuccessors` are those that the live vectors reach. -/
theorem answers_liveSuccessors (n : Node) (f : NodeFilter) {tx : Transaction} (htx : tx.view = t) :
    (n.liveSuccessors f).Answers tx (.ok (t.reached (t.foundAlive n.id) f)) := by
  subst htx
  have hkey : ∀ (i : NodeId) m, tx.view.nodes[i]? = some m → m.id = i :=
    fun i m hm => (ht.node i m hm).1
  have hneighbours := answers_neighbours ht .outgoing (some .alive) f n
  rw [filterMap_distinct Node.id hkey, List.filterMap_map] at hneighbours
  exact hneighbours

/-- One of `vectors` leads to each node that is `reached`. -/
theorem any_of_mem_reached {vectors : List Vector} {f : NodeFilter} {m : Node}
    (hm : m ∈ t.reached vectors f) : vectors.any (·.destination = m.id) := by
  have hmem := (distinct_sublist _ _).mem (List.mem_filter.1 hm).1
  obtain ⟨v, hv, hfound⟩ := List.mem_filterMap.1 hmem
  refine List.any_eq_true.2 ⟨v, hv, ?_⟩
  simpa using (ht.node _ _ hfound).1.symm

/-- To work off the recipients in `work` is to read them one after the other and to gather what is
read. -/
theorem answers_resolveRecipients (n : Node) (work : List Recipients) (found : List Node)
    {tx : Transaction} (htx : tx.view = t) :
    (n.resolveRecipients work found).Answers tx
      ((Recipients.readAll t n.id (t.foundAlive n.id) work).map (gather (·.id) found)) := by
  induction work, found using Node.resolveRecipients.induct generalizing tx with
  | case1 found =>
    have hnil : (Recipients.readAll t n.id (t.foundAlive n.id) []).map (gather (·.id) found) =
        .ok found := by
      rw [Recipients.readAll, Except.map, gather_nil]
    rw [resolveRecipients, hnil]
    exact .pure found tx
  | case2 found m rest ih =>
    rw [resolveRecipients, Recipients.readAll, map_gather_bind]
    exact (n.answers_takeRecipient found m htx).bind fun found tx' _ hnoted =>
      ih found (hnoted.view_eq.trans htx)
  | case3 found f rest ih =>
    rw [resolveRecipients, Recipients.readAll, map_gather_bind, Recipients.read]
    refine (n.answers_liveSuccessors ht f htx).bind_of_ok fun tx' hnoted => ?_
    have htake : ((t.reached (t.foundAlive n.id) f).foldlM n.takeRecipient found).Answers tx'
        (.ok (gather (·.id) found (t.reached (t.foundAlive n.id) f))) := by
      rw [← foldlM_gather Node.id _ found fun _ _ _ => rfl]
      refine .foldlM _ found fun found m hm tx'' hnoted' => ?_
      have htaken := n.answers_takeRecipient found m
        (hnoted'.view_eq.trans (hnoted.view_eq.trans htx))
      rw [Recipients.read, if_pos (any_of_mem_reached ht hm)] at htaken
      exact htaken
    refine htake.bind_of_ok fun tx'' hnoted' => ?_
    exact ih _ (hnoted'.view_eq.trans (hnoted.view_eq.trans htx))
  | case4 found items rest ih =>
    have hread : Recipients.readAll t n.id (t.foundAlive n.id) (.many items :: rest) =
        Recipients.readAll t n.id (t.foundAlive n.id) (items ++ rest) := by
      rw [Recipients.readAll_append, Recipients.readAll, Recipients.read]
    rw [resolveRecipients, hread]
    exact ih htx

/-! ## Plans -/

theorem answers_someContent (n : Node) (c : Content) {tx : Transaction} (htx : tx.view = t) :
    (n.someContent c).Answers tx
      ((c.read t n.id).map (distinct (·.id)) >>= nonempty (.nothingToSend n.id)) := by
  rw [← Content.map_gather_readAll_singleton]
  refine (n.answers_resolveContent ht [c] [] htx).bind fun infos tx' _ _ => ?_
  cases infos with
  | nil => exact .throw _ tx'
  | cons i rest => exact .pure (i :: rest) tx'

theorem answers_someRecipients (n : Node) (r : Recipients) {tx : Transaction}
    (htx : tx.view = t) :
    (n.someRecipients r).Answers tx ((r.read t n.id (t.foundAlive n.id)).map (distinct (·.id)) >>=
      nonempty (.nobodyToReach n.id)) := by
  rw [← Recipients.map_gather_readAll_singleton]
  refine (n.answers_resolveRecipients ht [r] [] htx).bind fun nodes tx' _ _ => ?_
  cases nodes with
  | nil => exact .throw _ tx'
  | cons m rest => exact .pure (m :: rest) tx'

omit ht in
/-- A `plan` whose names are given asks no hook. -/
theorem plan_named (n : Node) (b : Behavior) (c : Content) (r : Recipients) :
    n.plan b (some c) (some r) = Op.access (do
      let infos ← n.someContent c
      let nodes ← n.someRecipients r
      return pairs infos nodes) := by
  simp only [Access.op_bind]
  rfl

/-- A `plan` whose names are given is the one that is read, with the live vectors that a search
finds. -/
theorem answers_plan (n : Node) (c : Content) (r : Recipients) {tx : Transaction}
    (htx : tx.view = t) (hlive : t.foundAlive n.id = t.live n.id) :
    (do let infos ← n.someContent c
        let nodes ← n.someRecipients r
        return pairs infos nodes : Access (List (Info × Node))).Answers tx
      (t.planned n.id c r) := by
  have hplanned : t.planned n.id c r = (do
      let infos ← (c.read t n.id).map (distinct (·.id)) >>= nonempty (.nothingToSend n.id)
      let nodes ← (r.read t n.id (t.foundAlive n.id)).map (distinct (·.id)) >>=
        nonempty (.nobodyToReach n.id)
      return pairs infos nodes) := by
    rw [Tables.planned, hlive]
    cases c.read t n.id <;> cases r.read t n.id (t.live n.id) <;> rfl
  rw [hplanned]
  refine (n.answers_someContent ht c htx).bind fun infos tx' _ hnoted => ?_
  exact (n.answers_someRecipients ht r (hnoted.view_eq.trans htx)).bind fun nodes tx'' _ _ =>
    .pure _ tx''

end Node

namespace World

/-- A plan whose names are given is the one that is read from left to right, and to plan does
nothing but look: a plan leaves the transaction as it was, but for the account of what was looked up
and searched. -/
theorem plan_eq_planned (mint : Mint) (events : List Event) {name : Nat} {s : Session Trace}
    (hs : (run mint events).sessions name = some s) (hborn : (run mint events).BornOnce) (n : Node)
    (b : Behavior) (c : Content) (r : Recipients) (mint' : Mint) :
    let result := n.plan b (some c) (some r) { tx := s.tx, mint := mint' }
    outcome result = s.tx.view.planned n.id c r ∧
      ∃ tx, s.tx.Noted tx ∧ final result = { tx, mint := mint' } := by
  have hw := reachable_run mint events
  have hkeyed := (hw.sound.sessions name s hs).keyed_view
  have hintact := Tables.intact hkeyed (hw.closed_view hs)
  have hlinked := (linked_run mint events hborn).view hw.sound hs
  rw [Node.plan_named]
  exact (n.answers_plan hintact c r rfl (Tables.foundAlive_eq_live hintact hlinked n.id)).op mint'

/-- A node with two infos is joined to two nodes, and a second transaction begins after that. -/
def errand : List Event :=
  [.begin 0 .readWrite .serializable, .ask 0 (.insert (.node (.numbered 0))),
    .ask 0 (.insert (.node (.numbered 1))), .ask 0 (.insert (.node (.numbered 2))),
    .ask 0 (.insert (.vector (.numbered 3 0 1))), .ask 0 (.insert (.vector (.numbered 4 0 2))),
    .ask 0 (.insert (.info (.numbered 5 0))), .ask 0 (.insert (.info (.numbered 6 0))), .commit 0,
    .begin 1 .readWrite .readCommitted]

/-- Infos and nodes that are named again, also by a choice within a list, are not sent again, and
their first names give the order. -/
theorem plan_eq_planned_errand : ∃ s, (run .still errand).sessions 1 = some s ∧
    (run .still errand).BornOnce ∧
    outcome ((Node.numbered 0).plan .plain
      (some (.many [.info (.numbered 5 0), .many [.ofType .any, .info (.numbered 5 0)]]))
      (some (.many [.node (.numbered 2), .ofType .any])) { tx := s.tx, mint := .still }) =
        .ok [(.numbered 5 0, .numbered 2), (.numbered 5 0, .numbered 1),
          (.numbered 6 0, .numbered 2), (.numbered 6 0, .numbered 1)] := by
  have hs : (run .still errand).sessions 1 = some _ := rfl
  have hborn : (run .still errand).BornOnce := by decide
  refine ⟨_, hs, hborn, ?_⟩
  exact (plan_eq_planned .still errand hs hborn (.numbered 0) .plain _ _ .still).1.trans
    (by decide +kernel)

end World

end Propagation
