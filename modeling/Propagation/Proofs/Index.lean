import Propagation.Proofs.Order
import Mathlib.Data.List.Nodup

/-!
# Indexes and rows

A query for vectors that names an end does not search the table of vectors but a list that was kept
beside it. Where these lists are in step with the table, it makes no difference: the answer is the
rows that agree with the query, in chronological order.

What is in step is told by counting, since a list may come about in more than one order. Whatever is
stored is entered once, when it is new, as long as a vector that is stored again has the same ends.

## Main definitions

* `Tables.ListsNew`, `Tables.IndexedOver`: what was stored on top of other tables is indexed on top
  of them.
* `Tables.Linked`: the indexes are in step with the vectors.

## Main statements

* `Tables.IndexedOver.put_of_new_ends`: what is stored is indexed if it is new.
* `Tables.selectVectors_eq`: a query for vectors finds the rows that agree with it.
* `Tables.selectInfos_filter`: a choice among the infos of an answer.
* `Tables.mem_selectTransmissions`, `Tables.pairwise_selectTransmissions`: what a query for
  transmissions finds, and in which order.
-/

namespace Propagation

open Std (ExtTreeMap)

/-! ## Chronological order -/

section Chronology

variable {e : Entity} {ρ : Type} {time : ρ → Timestamp} {id : ρ → Id e}

instance : Std.TransCmp Vector.chronological :=
  inferInstanceAs (Std.TransCmp (compareLex (compareOn Vector.creationTime) (compareOn Vector.id)))

instance : Std.TransCmp Info.chronological :=
  inferInstanceAs (Std.TransCmp (compareLex (compareOn Info.creationTime) (compareOn Info.id)))

instance : Std.TransCmp Transmission.chronological :=
  inferInstanceAs (Std.TransCmp (compareLex (compareOn Transmission.transmitTime)
    (compareOn Transmission.id)))

/-- In the order by `time` and then by `id`, only a record and itself compare equal: its identifier
tells it from all other rows. -/
theorem Tables.eq_of_chronological {table : ExtTreeMap (Id e) ρ}
    (h : ∀ i r, table[i]? = some r → id r = i) {a b : ρ} (ha : a ∈ rows table) (hb : b ∈ rows table)
    (hab : compareLex (compareOn time) (compareOn id) a b = .eq) : a = b := by
  have hid : id a = id b := Std.LawfulEqOrd.eq_of_compare (Ordering.then_eq_eq.1 hab).2
  obtain ⟨i, hi⟩ := mem_rows.1 ha
  obtain ⟨j, hj⟩ := mem_rows.1 hb
  have hij : i = j := (h i a hi).symm.trans (hid.trans (h j b hj))
  subst hij
  exact Option.some.inj (hi.symm.trans hj)

end Chronology

namespace Tables

/-! ## One index -/

/-- The lists of an index are those of an older one with the new vectors at the node `f`, once
each. The tables of vectors, old and new, tell which ones are new. -/
def ListsNew (f : Vector → NodeId) (old new : ExtTreeMap VectorId Vector)
    (oldIndex newIndex : ExtTreeMap NodeId (List VectorId)) : Prop :=
  ∀ n i, (newIndex.getD n []).count i = (oldIndex.getD n []).count i +
    if old[i]? = none ∧ new[i]?.any (f · = n) then 1 else 0

namespace ListsNew

variable {f : Vector → NodeId} {old new : ExtTreeMap VectorId Vector}
  {oldIndex newIndex : ExtTreeMap NodeId (List VectorId)}

theorem refl : ListsNew f old old oldIndex oldIndex := by
  intro n i
  cases h : old[i]? <;> simp

/-- A vector `v` that is stored again is not entered again. If it is new, it has to be stored at the
same node. -/
theorem keep (h : ListsNew f old new oldIndex newIndex) {v v' : Vector}
    (hv : new[v.id]? = some v') (hf : old[v.id]? = none → f v' = f v) :
    ListsNew f old (new.insert v.id v) oldIndex newIndex := by
  intro n i
  rw [h n i]
  simp only [ExtTreeMap.getElem?_insert, Std.compare_eq_iff_eq]
  by_cases hi : v.id = i
  · subst hi
    by_cases hold : old[v.id]? = none
    · simp [hv, hf hold]
    · simp [hold]
  · simp [hi]

/-- A vector `v` that is new is entered. -/
theorem enlist (h : ListsNew f old new oldIndex newIndex) {v : Vector} (hv : new[v.id]? = none)
    (hold : old[v.id]? = none) :
    ListsNew f old (new.insert v.id v) oldIndex (Tables.enlist v.id (f v) newIndex) := by
  intro n i
  have hcount := h n i
  simp only [Tables.enlist, ExtTreeMap.getElem?_insert, ExtTreeMap.getD_insert,
    Std.compare_eq_iff_eq]
  by_cases hi : v.id = i
  · subst hi
    rw [hold, hv] at hcount
    by_cases hn : f v = n
    · subst hn
      simpa [hold] using hcount
    · simpa [hold, hn] using hcount
  · by_cases hn : f v = n
    · subst hn
      simpa [hi] using hcount
    · simpa [hi, hn] using hcount

/-- What is new on top of what is new is new, if it stays where it was entered. -/
theorem trans {mid : ExtTreeMap VectorId Vector}
    {midIndex : ExtTreeMap NodeId (List VectorId)} (h : ListsNew f old mid oldIndex midIndex)
    (h' : ListsNew f mid new midIndex newIndex)
    (hhas : ∀ i : VectorId, mid[i]? = none → old[i]? = none)
    (hstays : ∀ (i : VectorId) v, old[i]? = none → mid[i]? = some v → new[i]? = some v) :
    ListsNew f old new oldIndex newIndex := by
  intro n i
  rw [h' n i, h n i]
  cases hmid : mid[i]? with
  | none => simp [hhas i hmid]
  | some v =>
    by_cases hold : old[i]? = none
    · simp [hold, hstays i v hold hmid]
    · simp [hold]

end ListsNew

/-! ## Both indexes -/

/-- The tables `t` came of `base` by storing records, and their indexes list what is new. -/
structure IndexedOver (base t : Tables) : Prop where
  has : ∀ i : VectorId, t.vectors[i]? = none → base.vectors[i]? = none
  outgoing : ListsNew Vector.origin base.vectors t.vectors base.outgoing t.outgoing
  incoming : ListsNew Vector.destination base.vectors t.vectors base.incoming t.incoming

theorem IndexedOver.refl (t : Tables) : t.IndexedOver t := ⟨fun _ h => h, .refl, .refl⟩

/-- The record `r` that is stored is indexed if it is new. A vector that became known since `base`
has to have the same ends. -/
theorem IndexedOver.put_of_new_ends {base t : Tables} (h : base.IndexedOver t) {r : Record}
    (hr : ∀ v v', r = .vector v → base.vectors[v.id]? = none → t.vectors[v.id]? = some v' →
      v'.origin = v.origin ∧ v'.destination = v.destination) : base.IndexedOver (t.put r) := by
  cases r with
  | vector v =>
    have hhas : ∀ i : VectorId, (t.vectors.insert v.id v)[i]? = none → base.vectors[i]? = none := by
      intro i hi
      rw [ExtTreeMap.getElem?_insert] at hi
      split at hi
      · cases hi
      · exact h.has i hi
    cases hv : t.vectors[v.id]? with
    | none =>
      have hnew : t.vectors.contains v.id = false := by
        rw [ExtTreeMap.contains_eq_isSome_getElem?, hv]
        rfl
      have hold := h.has v.id hv
      simp only [Tables.put, putVector, link, hnew]
      exact ⟨hhas, h.outgoing.enlist hv hold, h.incoming.enlist hv hold⟩
    | some v' =>
      have hknown : t.vectors.contains v.id = true := by
        rw [ExtTreeMap.contains_eq_isSome_getElem?, hv]
        rfl
      simp only [Tables.put, putVector, link, hknown]
      exact ⟨hhas, h.outgoing.keep hv fun hold => (hr v v' rfl hold hv).1,
        h.incoming.keep hv fun hold => (hr v v' rfl hold hv).2⟩
  | _ => exact ⟨h.has, h.outgoing, h.incoming⟩

/-- The record `r` that is stored is indexed if it is new. A vector that is known has to have the
same ends. -/
theorem IndexedOver.put_of_ends {base t : Tables} (h : base.IndexedOver t) {r : Record}
    (hr : ∀ v v', r = .vector v → t.vectors[v.id]? = some v' →
      v'.origin = v.origin ∧ v'.destination = v.destination) : base.IndexedOver (t.put r) :=
  h.put_of_new_ends fun v v' hv _ => hr v v' hv

/-- The record `r` that is stored where it is allowed is indexed if it is new. -/
theorem IndexedOver.put {base t : Tables} (h : base.IndexedOver t) {r : Record}
    (hr : t.Allows r) : base.IndexedOver (t.put r) := by
  refine h.put_of_ends fun v v' hv hv' => ?_
  subst hv
  have hle : v'.Le v := hr (.vector v') (by simp only [find?, Record.key, hv', Option.map_some])
  exact ⟨hle.origin.symm, hle.destination.symm⟩

/-! ## Tables in step with their indexes -/

/-- Each vector is in the list of its origin and in that of its destination once, and nothing else
is in these lists. -/
def Linked (t : Tables) : Prop := ({} : Tables).IndexedOver t

theorem linked_empty : ({} : Tables).Linked := .refl _

section Counts

variable {t : Tables} (h : t.Linked)
include h

theorem Linked.count_outgoing (n : NodeId) (i : VectorId) :
    (t.outgoing.getD n []).count i = if t.vectors[i]?.any (·.origin = n) then 1 else 0 := by
  rw [IndexedOver.outgoing h n i]
  simp

theorem Linked.count_incoming (n : NodeId) (i : VectorId) :
    (t.incoming.getD n []).count i = if t.vectors[i]?.any (·.destination = n) then 1 else 0 := by
  rw [IndexedOver.incoming h n i]
  simp

/-- Whatever the query `q`, no vector is looked for twice. -/
theorem Linked.nodup_vectorIds (q : VectorQuery) : (t.vectorIds q).Nodup := by
  rw [vectorIds]
  split
  · refine List.nodup_iff_count_le_one.2 fun i => ?_
    rw [h.count_outgoing]
    split <;> omega
  · refine List.nodup_iff_count_le_one.2 fun i => ?_
    rw [h.count_incoming]
    split <;> omega
  · exact ExtTreeMap.nodup_keys

/-- Whatever the query `q`, each vector that agrees with it is looked for. -/
theorem Linked.mem_vectorIds {q : VectorQuery} {i : VectorId} {v : Vector}
    (hv : t.vectors[i]? = some v) (hq : q.matches t v) : i ∈ t.vectorIds q := by
  simp only [VectorQuery.matches, Bool.and_eq_true, Option.all_eq_true, decide_eq_true_eq] at hq
  rw [vectorIds]
  split
  · rename_i n ho
    have horigin : v.origin = n := hq.1.1.1 n ho
    rw [← List.count_pos_iff, h.count_outgoing, hv]
    simp [horigin]
  · rename_i n _ hd
    have hdestination : v.destination = n := hq.1.1.2 n hd
    rw [← List.count_pos_iff, h.count_incoming, hv]
    simp [hdestination]
  · rw [ExtTreeMap.mem_keys, ← ExtTreeMap.isSome_getElem?_iff_mem, hv]
    rfl

end Counts

/-- Where the indexes are in step, `selectVectors` finds the rows that agree with the query. -/
theorem selectVectors_eq {t : Tables} (h : t.Linked)
    (hid : ∀ (i : VectorId) v, t.vectors[i]? = some v → v.id = i) (q : VectorQuery) :
    t.selectVectors q = sort Vector.chronological ((rows t.vectors).filter (q.matches t)) := by
  have hfound : (((t.vectorIds q).filterMap (t.vectors[·]?)).filter (q.matches t)).Nodup := by
    refine ((h.nodup_vectorIds q).filterMap fun i j v hi hj => ?_).filter _
    exact (hid i v hi).symm.trans (hid j v hj)
  have hrows : ((rows t.vectors).filter (q.matches t)).Nodup :=
    (List.Nodup.of_map _ (rows_nodup hid)).filter _
  refine sort_eq_of_perm ((List.perm_ext_iff_of_nodup hfound hrows).2 fun v => ?_) ?_
  · rw [List.mem_filter, List.mem_filter, List.mem_filterMap, mem_rows]
    refine and_congr_left fun hq => ⟨?_, ?_⟩
    · rintro ⟨i, -, hv⟩
      exact ⟨i, hv⟩
    · rintro ⟨i, hv⟩
      exact ⟨i, h.mem_vectorIds hv hq, hv⟩
  · intro a ha b hb
    exact eq_of_chronological hid (List.mem_filter.1 ha).1 (List.mem_filter.1 hb).1

/-- To choose by `p` among the infos of an answer is to choose among the rows. -/
theorem selectInfos_filter {t : Tables}
    (hid : ∀ (i : InfoId) m, t.infos[i]? = some m → m.id = i) (n : NodeId) (p : Info → Bool) :
    (t.selectInfos { origin := some n, newestFirst := true }).filter p =
      (sort Info.chronological ((rows t.infos).filter fun i => i.origin = n && p i)).reverse := by
  have heq : ∀ a ∈ (rows t.infos).filter (InfoQuery.matches { origin := some n }),
      ∀ b ∈ (rows t.infos).filter (InfoQuery.matches { origin := some n }),
        Info.chronological a b = .eq → a = b := fun a ha b hb =>
    eq_of_chronological hid (List.mem_filter.1 ha).1 (List.mem_filter.1 hb).1
  change (sort Info.chronological ((rows t.infos).filter
    (InfoQuery.matches { origin := some n }))).reverse.filter p = _
  rw [List.filter_reverse, filter_sort heq, List.filter_filter]
  congr 3
  funext i
  simp [InfoQuery.matches, Bool.and_comm]

section Transmissions

variable {t : Tables} (hid : ∀ (i : TransmissionId) m, t.transmissions[i]? = some m → m.id = i)
  (q : TransmissionQuery)
include hid

/-- A query `q` for transmissions finds the rows that agree with it. -/
theorem mem_selectTransmissions {m : Transmission} :
    m ∈ t.selectTransmissions q ↔ t.transmissions[m.id]? = some m ∧ q.matches t m := by
  rw [selectTransmissions, mem_sort, List.mem_filter, mem_rows]
  refine and_congr_left fun _ => ⟨?_, fun hm => ⟨_, hm⟩⟩
  rintro ⟨i, hm⟩
  rwa [hid i m hm]

/-- What `selectTransmissions` finds is in chronological order. -/
theorem pairwise_selectTransmissions :
    (t.selectTransmissions q).Pairwise fun m m' => m.chronological m' = .lt := by
  refine pairwise_lt_sort (.filter _ (.of_map _ (rows_nodup hid))) fun a ha b hb hab => ?_
  exact eq_of_chronological hid (List.mem_filter.1 ha).1 (List.mem_filter.1 hb).1 hab

end Transmissions

end Tables

end Propagation
