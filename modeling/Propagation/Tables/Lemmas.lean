import Propagation.Tables.Query

/-!
# Looking into tables

What each operation on tables does to the records that are found in them. After this nobody has
to open the six tables one by one.

## Main definitions

* `Tables.putAll`: store several records.

## Main statements

* `Tables.find?_put`: a stored record is found under its key, and all others are as before.
* `Tables.find?_putAll`: so are several records with different keys.
* `Tables.find?_node` and siblings: to look up a key is to look into the table of its kind.
* `Tables.find?_copy`: a copied key holds what the source holds there, if anything.
* `Tables.mem_rows`: the rows of a table are the records found in it.
* `Tables.rows_nodup`: records that stand under their own identifiers stand there once.
-/

namespace Propagation.Tables

open Std (ExtTreeMap)

/-! ## Vectors -/

@[simp] theorem vectors_link (v : Vector) (t : Tables) : (t.link v).vectors = t.vectors := by
  unfold link; split <;> rfl

@[simp] theorem networks_link (v : Vector) (t : Tables) : (t.link v).networks = t.networks := by
  unfold link; split <;> rfl

@[simp] theorem nodes_link (v : Vector) (t : Tables) : (t.link v).nodes = t.nodes := by
  unfold link; split <;> rfl

@[simp] theorem infos_link (v : Vector) (t : Tables) : (t.link v).infos = t.infos := by
  unfold link; split <;> rfl

@[simp] theorem transmissions_link (v : Vector) (t : Tables) :
    (t.link v).transmissions = t.transmissions := by
  unfold link; split <;> rfl

@[simp] theorem transformations_link (v : Vector) (t : Tables) :
    (t.link v).transformations = t.transformations := by
  unfold link; split <;> rfl

/-! ## Finding -/

/-- After `put`, the record is found under its key; every other key is as before. -/
theorem find?_put (r : Record) (t : Tables) (k : Key) :
    (t.put r).find? k = if r.key = k then some r else t.find? k := by
  cases r <;> cases k <;>
    simp only [put, putVector, find?, Record.key, Key.network.injEq, Key.node.injEq,
      Key.vector.injEq, Key.info.injEq, Key.transmission.injEq, Key.transformation.injEq,
      reduceCtorEq, if_false, ExtTreeMap.getElem?_insert, Std.compare_eq_iff_eq, vectors_link,
      networks_link, nodes_link, infos_link, transmissions_link, transformations_link] <;>
    split <;> rfl

@[simp] theorem find?_put_self (r : Record) (t : Tables) : (t.put r).find? r.key = some r := by
  rw [find?_put, if_pos rfl]

theorem has_put (r : Record) (t : Tables) (k : Key) :
    (t.put r).has k = (decide (r.key = k) || t.has k) := by
  rw [has, find?_put, has]
  by_cases h : r.key = k <;> simp [h]

/-! ### Records of one kind -/

section Kinds

variable {t : Tables}

@[simp] theorem find?_network {i : NetworkId} {n : Network} :
    t.find? (.network i) = some (.network n) ↔ t.networks[i]? = some n := by
  simp [find?]

@[simp] theorem find?_node {i : NodeId} {n : Node} :
    t.find? (.node i) = some (.node n) ↔ t.nodes[i]? = some n := by
  simp [find?]

@[simp] theorem find?_vector {i : VectorId} {v : Vector} :
    t.find? (.vector i) = some (.vector v) ↔ t.vectors[i]? = some v := by
  simp [find?]

@[simp] theorem find?_info {i : InfoId} {m : Info} :
    t.find? (.info i) = some (.info m) ↔ t.infos[i]? = some m := by
  simp [find?]

@[simp] theorem find?_transmission {i : TransmissionId} {m : Transmission} :
    t.find? (.transmission i) = some (.transmission m) ↔ t.transmissions[i]? = some m := by
  simp [find?]

@[simp] theorem find?_transformation {i : TransformationId} {m : Transformation} :
    t.find? (.transformation i) = some (.transformation m) ↔ t.transformations[i]? = some m := by
  simp [find?]

end Kinds

/-- Every record stands under its own key. -/
def Keyed (t : Tables) : Prop := ∀ k r, t.find? k = some r → r.key = k

namespace Keyed

variable {t : Tables} (h : t.Keyed)
include h

theorem node_id {i : NodeId} {n : Node} (hn : t.nodes[i]? = some n) : n.id = i :=
  Key.node.inj (h _ _ (find?_node.2 hn))

theorem transmission_id {i : TransmissionId} {m : Transmission}
    (hm : t.transmissions[i]? = some m) : m.id = i :=
  Key.transmission.inj (h _ _ (find?_transmission.2 hm))

end Keyed

/-- After `copy`, a key holds what `source` holds there; if that is nothing, it stays as it was. -/
theorem find?_copy {source : Tables} (hs : source.Keyed) (k l : Key) (t : Tables) :
    (copy source k t).find? l = if k = l then (source.find? k).or (t.find? l) else t.find? l := by
  unfold copy
  split
  · rename_i r hr
    rw [find?_put, hs k r hr, hr]
    split <;> rfl
  · rename_i hr
    simp [hr]

theorem keyed_empty : ({} : Tables).Keyed := by
  intro k r h
  cases k <;> simp [find?] at h

theorem Keyed.put {t : Tables} (h : t.Keyed) (r : Record) : (t.put r).Keyed := by
  intro k s hs
  rw [find?_put] at hs
  split at hs
  · rename_i hk
    exact Option.some.inj hs ▸ hk
  · exact h k s hs

theorem Keyed.copy {t : Tables} (h : t.Keyed) (source : Tables) (k : Key) :
    (copy source k t).Keyed := by
  unfold Tables.copy
  split
  · exact h.put _
  · exact h

/-! ## Storing several records -/

/-- Store the records `rs`, one after the other. -/
def putAll (rs : List Record) (t : Tables) : Tables := rs.foldl (fun t r => t.put r) t

@[simp] theorem putAll_cons (r : Record) (rs : List Record) (t : Tables) :
    t.putAll (r :: rs) = (t.put r).putAll rs := rfl

theorem putAll_append (rs ss : List Record) (t : Tables) :
    t.putAll (rs ++ ss) = (t.putAll rs).putAll ss := List.foldl_append

/-- After records with different keys were stored, they are found, and all others as before. -/
theorem find?_putAll {rs : List Record} (hnodup : (rs.map Record.key).Nodup) (t : Tables) {k : Key}
    {r : Record} : (t.putAll rs).find? k = some r ↔
      (r ∈ rs ∧ r.key = k) ∨ (k ∉ rs.map Record.key ∧ t.find? k = some r) := by
  induction rs generalizing t with
  | nil => simp [putAll]
  | cons s rs ih =>
    obtain ⟨hs, hnodup⟩ := List.nodup_cons.1 hnodup
    rw [putAll_cons, ih hnodup, find?_put, List.map_cons, List.mem_cons, List.mem_cons, not_or]
    by_cases hk : s.key = k
    · subst hk
      rw [if_pos rfl, Option.some.injEq]
      constructor
      · rintro (⟨hr, hkey⟩ | ⟨-, rfl⟩)
        · exact absurd (hkey ▸ List.mem_map_of_mem hr) hs
        · exact .inl ⟨.inl rfl, rfl⟩
      · rintro (⟨rfl | hr, hkey⟩ | ⟨⟨hne, -⟩, -⟩)
        · exact .inr ⟨hs, rfl⟩
        · exact absurd (hkey ▸ List.mem_map_of_mem hr) hs
        · exact absurd rfl hne
    · rw [if_neg hk]
      constructor
      · rintro (⟨hr, hkey⟩ | ⟨hfree, hr⟩)
        · exact .inl ⟨.inr hr, hkey⟩
        · exact .inr ⟨⟨Ne.symm hk, hfree⟩, hr⟩
      · rintro (⟨rfl | hr, hkey⟩ | ⟨⟨-, hfree⟩, hr⟩)
        · exact absurd hkey hk
        · exact .inl ⟨hr, hkey⟩
        · exact .inr ⟨hfree, hr⟩

theorem has_putAll (rs : List Record) (t : Tables) {k : Key} :
    (t.putAll rs).has k ↔ k ∈ rs.map Record.key ∨ t.has k := by
  induction rs generalizing t with
  | nil => simp [putAll]
  | cons r rs ih =>
    rw [putAll_cons, ih, has_put, Bool.or_eq_true, decide_eq_true_eq, List.map_cons, List.mem_cons,
      or_left_comm, or_assoc, @eq_comm _ k]

theorem Keyed.putAll {t : Tables} (h : t.Keyed) (rs : List Record) : (t.putAll rs).Keyed := by
  induction rs generalizing t with
  | nil => exact h
  | cons r rs ih => exact ih (h.put r)

/-! ## Rows -/

section Rows

variable {e : Entity} {ρ : Type}

/-- The `rows` of a table are what is found in it. -/
theorem mem_rows {table : ExtTreeMap (Id e) ρ} {r : ρ} :
    r ∈ rows table ↔ ∃ i : Id e, table[i]? = some r := by
  simp [rows, ExtTreeMap.mem_toList_iff_getElem?_eq_some]

/-- A table whose records stand under their own identifiers holds no two with the same one. -/
theorem rows_nodup {table : ExtTreeMap (Id e) ρ} {id : ρ → Id e}
    (h : ∀ i r, table[i]? = some r → id r = i) : ((rows table).map id).Nodup := by
  have hk : (rows table).map id = table.keys := by
    rw [← ExtTreeMap.map_fst_toList_eq_keys, rows, List.map_map]
    refine List.map_congr_left fun ⟨i, r⟩ hr => ?_
    exact h i r (ExtTreeMap.mem_toList_iff_getElem?_eq_some.1 hr)
  rw [hk]
  exact ExtTreeMap.nodup_keys

end Rows

end Propagation.Tables
