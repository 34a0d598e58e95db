/-!
# Distinct elements

The elements of a list without repetitions, where what counts is a key of the element and the
first of those with the same key stays.

## Main definitions

* `distinctFrom`: the elements whose key is not among some keys already seen.
* `distinct`: the elements with distinct keys.

## Main statements

* `mem_map_distinct`: no key is lost.
* `nodup_map_distinct`: no key stays twice.
* `distinct_of_nodup`: if no key is there twice, all stay.
* `eq_or_of_mem_distinct`: what stays is the first with its key.
* `filterMap_distinctFrom`: distinct keys have distinct records.
-/

namespace Propagation

variable {α β : Type} [DecidableEq β]

/-- The elements whose key is neither in `seen` nor that of an earlier element. -/
def distinctFrom (key : α → β) : (seen : List β) → List α → List α
  | _, [] => []
  | seen, x :: xs =>
    if key x ∈ seen then distinctFrom key seen xs
    else x :: distinctFrom key (key x :: seen) xs

/-- The elements with distinct keys, the first of each key. -/
def distinct (key : α → β) (xs : List α) : List α := distinctFrom key [] xs

/-- Nothing about the list `seen` but the set of its keys matters to `distinctFrom`. -/
theorem distinctFrom_congr {key : α → β} {seen seen' : List β} (h : ∀ k, k ∈ seen ↔ k ∈ seen')
    (xs : List α) : distinctFrom key seen xs = distinctFrom key seen' xs := by
  induction xs generalizing seen seen' with
  | nil => rfl
  | cons x xs ih =>
    have hrest : ∀ k, k ∈ key x :: seen ↔ k ∈ key x :: seen' := by simp [h]
    simp only [distinctFrom, h, ih h, ih hrest]

theorem distinctFrom_sublist (key : α → β) (seen : List β) (xs : List α) :
    (distinctFrom key seen xs).Sublist xs := by
  induction xs generalizing seen with
  | nil => exact .slnil
  | cons x xs ih =>
    rw [distinctFrom]
    split
    · exact (ih seen).cons x
    · exact (ih _).cons_cons x

theorem mem_map_distinctFrom {key : α → β} {seen : List β} {xs : List α} {k : β} :
    k ∈ (distinctFrom key seen xs).map key ↔ k ∈ xs.map key ∧ k ∉ seen := by
  induction xs generalizing seen with
  | nil => simp [distinctFrom]
  | cons x xs ih => rw [distinctFrom]; split <;> grind

theorem nodup_map_distinctFrom (key : α → β) (seen : List β) (xs : List α) :
    ((distinctFrom key seen xs).map key).Nodup := by
  induction xs generalizing seen with
  | nil => simp [distinctFrom]
  | cons x xs ih =>
    rw [distinctFrom]
    split
    · exact ih seen
    · simpa [mem_map_distinctFrom] using ih _

@[simp] theorem mem_map_distinct {key : α → β} {xs : List α} {k : β} :
    k ∈ (distinct key xs).map key ↔ k ∈ xs.map key := by
  simp [distinct, mem_map_distinctFrom]

theorem nodup_map_distinct (key : α → β) (xs : List α) : ((distinct key xs).map key).Nodup :=
  nodup_map_distinctFrom key [] xs

theorem distinct_sublist (key : α → β) (xs : List α) : (distinct key xs).Sublist xs :=
  distinctFrom_sublist key [] xs

theorem distinctFrom_of_nodup {key : α → β} {seen : List β} {xs : List α}
    (h : (xs.map key).Nodup) (hseen : ∀ x ∈ xs, key x ∉ seen) : distinctFrom key seen xs = xs := by
  induction xs generalizing seen with
  | nil => rfl
  | cons x xs ih =>
    obtain ⟨hx, hxs⟩ := List.nodup_cons.1 h
    obtain ⟨hseen, hrest⟩ := List.forall_mem_cons.1 hseen
    rw [distinctFrom, if_neg hseen, ih hxs fun y hy => ?_]
    rw [List.mem_cons, not_or]
    refine ⟨fun heq => hx ?_, hrest y hy⟩
    exact heq ▸ List.mem_map_of_mem hy

/-- Where no two elements have the same key, `distinct` keeps all of them. -/
theorem distinct_of_nodup {key : α → β} {xs : List α} (h : (xs.map key).Nodup) :
    distinct key xs = xs := distinctFrom_of_nodup h fun _ _ => List.not_mem_nil

/-- The keys of what `distinctFrom key` keeps are the distinct keys. -/
theorem map_distinctFrom (key : α → β) (seen : List β) (xs : List α) :
    (distinctFrom key seen xs).map key = distinctFrom (fun k => k) seen (xs.map key) := by
  induction xs generalizing seen with
  | nil => rfl
  | cons x xs ih =>
    rw [distinctFrom, List.map_cons, distinctFrom]
    split
    · exact ih seen
    · rw [List.map_cons, ih]

theorem map_distinct (key : α → β) (xs : List α) :
    (distinct key xs).map key = distinct (fun k => k) (xs.map key) := map_distinctFrom key [] xs

/-- What `distinctFrom` keeps comes, as `R` has it, before all others of the same key. -/
theorem eq_or_of_mem_distinctFrom {key : α → β} {R : α → α → Prop} {seen : List β} {xs : List α}
    (h : xs.Pairwise R) {x : α} (hx : x ∈ distinctFrom key seen xs) {w : α} (hw : w ∈ xs)
    (hkey : key w = key x) : w = x ∨ R x w := by
  induction xs generalizing seen with
  | nil => cases hw
  | cons y ys ih =>
    obtain ⟨hy, hys⟩ := List.pairwise_cons.1 h
    have hnew : key x ∉ seen := (mem_map_distinctFrom.1 (List.mem_map_of_mem hx)).2
    rw [distinctFrom] at hx
    split at hx
    · rename_i hseen
      rcases List.mem_cons.1 hw with rfl | hw
      · exact absurd (hkey ▸ hseen) hnew
      · exact ih hys hx hw
    · rcases List.mem_cons.1 hx with rfl | hx
      · exact (List.mem_cons.1 hw).imp_right (hy w)
      · have hother : key x ∉ key y :: seen :=
          (mem_map_distinctFrom.1 (List.mem_map_of_mem hx)).2
        rcases List.mem_cons.1 hw with rfl | hw
        · exact absurd (hkey ▸ .head _) hother
        · exact ih hys hx hw

theorem eq_or_of_mem_distinct {key : α → β} {R : α → α → Prop} {xs : List α} (h : xs.Pairwise R)
    {x : α} (hx : x ∈ distinct key xs) {w : α} (hw : w ∈ xs) (hkey : key w = key x) :
    w = x ∨ R x w := eq_or_of_mem_distinctFrom h hx hw hkey

/-- To look up distinct keys with `g` is to look up all keys and to keep the distinct records. The
lists `seen` and `seen'` only have to agree on keys that have a record. -/
theorem filterMap_distinctFrom {key : α → β} {g : β → Option α}
    (hg : ∀ k x, g k = some x → key x = k) {seen seen' : List β}
    (h : ∀ k, (g k).isSome → (k ∈ seen ↔ k ∈ seen')) (ks : List β) :
    (distinctFrom (fun k => k) seen ks).filterMap g = distinctFrom key seen' (ks.filterMap g) := by
  induction ks generalizing seen seen' with
  | nil => rfl
  | cons k ks ih =>
    cases hk : g k with
    | none =>
      have hrest : ∀ j, (g j).isSome → (j ∈ k :: seen ↔ j ∈ seen') := by
        intro j hj
        have hne : j ≠ k := by
          rintro rfl
          simp [hk] at hj
        simpa [hne] using h j hj
      rw [distinctFrom, List.filterMap_cons_none hk]
      split
      · exact ih h
      · rw [List.filterMap_cons_none hk]
        exact ih hrest
    | some x =>
      obtain rfl := hg k x hk
      have hrest : ∀ j, (g j).isSome → (j ∈ key x :: seen ↔ j ∈ key x :: seen') := by
        intro j hj
        simp [h j hj]
      rw [distinctFrom, List.filterMap_cons_some hk, distinctFrom]
      by_cases hx : key x ∈ seen
      · rw [if_pos hx, if_pos ((h _ (by rw [hk]; rfl)).1 hx)]
        exact ih h
      · rw [if_neg hx, if_neg (mt (h _ (by rw [hk]; rfl)).2 hx), List.filterMap_cons_some hk,
          ih hrest]

theorem filterMap_distinct (key : α → β) {g : β → Option α}
    (hg : ∀ k x, g k = some x → key x = k) (ks : List β) :
    (distinct (fun k => k) ks).filterMap g = distinct key (ks.filterMap g) :=
  filterMap_distinctFrom hg (fun _ _ => .rfl) ks

end Propagation
