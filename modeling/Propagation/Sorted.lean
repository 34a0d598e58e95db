import Std.Data.ExtTreeMap

/-!
# Sorting

A stable sort by insertion, for answers whose order is part of their meaning.

## Main definitions

* `insertSorted`: an element put in its place in a sorted list.
* `sort`: the elements of a list in order, equal ones as they stood.

## Main statements

* `sort_perm`: sorting loses and adds nothing.
* `pairwise_sort`: no element of a sorted list comes after a later one.
* `pairwise_compareLex_sort`: what was in one order and is sorted by another is in both, one after
  the other.
* `eq_sort_of_perm`: there is one way to sort, where only equal elements compare equal.
* `eq_of_pairwise_lt`: there is one way to put elements in a strict order.
-/

namespace Propagation

variable {α : Type}

/-- Put `x` before the first element that it does not come after. -/
def insertSorted (cmp : α → α → Ordering) (x : α) : List α → List α
  | [] => [x]
  | y :: ys => if (cmp x y).isLE then x :: y :: ys else y :: insertSorted cmp x ys

/-- The elements of a list in the order of `cmp`; those that compare equal stay as they stood. -/
def sort (cmp : α → α → Ordering) (xs : List α) : List α := xs.foldr (insertSorted cmp) []

@[simp] theorem sort_nil (cmp : α → α → Ordering) : sort cmp [] = [] := rfl

@[simp] theorem sort_cons (cmp : α → α → Ordering) (x : α) (xs : List α) :
    sort cmp (x :: xs) = insertSorted cmp x (sort cmp xs) := rfl

theorem insertSorted_perm (cmp : α → α → Ordering) (x : α) (ys : List α) :
    (insertSorted cmp x ys).Perm (x :: ys) := by
  induction ys with
  | nil => exact .refl _
  | cons y ys ih =>
    rw [insertSorted]
    split
    · exact .refl _
    · exact (ih.cons y).trans (.swap x y ys)

theorem sort_perm (cmp : α → α → Ordering) (xs : List α) : (sort cmp xs).Perm xs := by
  induction xs with
  | nil => exact .refl _
  | cons x xs ih => exact (insertSorted_perm cmp x _).trans (ih.cons x)

@[simp] theorem mem_sort {cmp : α → α → Ordering} {x : α} {xs : List α} :
    x ∈ sort cmp xs ↔ x ∈ xs := (sort_perm cmp xs).mem_iff

@[simp] theorem length_sort (cmp : α → α → Ordering) (xs : List α) :
    (sort cmp xs).length = xs.length := (sort_perm cmp xs).length_eq

section Order

variable {cmp : α → α → Ordering} [Std.TransCmp cmp]

theorem pairwise_insertSorted {x : α} {ys : List α} (h : ys.Pairwise fun a b => (cmp a b).isLE) :
    (insertSorted cmp x ys).Pairwise fun a b => (cmp a b).isLE := by
  induction ys with
  | nil => simp [insertSorted]
  | cons y ys ih =>
    obtain ⟨hy, hys⟩ := List.pairwise_cons.1 h
    rw [insertSorted]
    split
    · rename_i hxy
      refine List.pairwise_cons.2 ⟨fun z hz => ?_, h⟩
      rcases List.mem_cons.1 hz with rfl | hz
      · exact hxy
      · exact Std.TransCmp.isLE_trans hxy (hy z hz)
    · rename_i hxy
      refine List.pairwise_cons.2 ⟨fun z hz => ?_, ih hys⟩
      rcases List.mem_cons.1 ((insertSorted_perm cmp x ys).mem_iff.1 hz) with rfl | hz
      · rw [@Std.OrientedCmp.eq_swap _ cmp]
        revert hxy
        cases cmp z y <;> simp [Ordering.isLE, Ordering.swap]
      · exact hy z hz

theorem pairwise_sort (xs : List α) : (sort cmp xs).Pairwise fun a b => (cmp a b).isLE := by
  induction xs with
  | nil => exact .nil
  | cons x xs ih => exact pairwise_insertSorted ih

/-- Where `cmp` finds only equal elements equal, different elements are sorted strictly. -/
theorem pairwise_lt_sort {xs : List α} (hxs : xs.Nodup)
    (heq : ∀ a ∈ xs, ∀ b ∈ xs, cmp a b = .eq → a = b) :
    (sort cmp xs).Pairwise fun a b => cmp a b = .lt := by
  have hne : (sort cmp xs).Nodup := (sort_perm cmp xs).nodup_iff.2 hxs
  refine ((pairwise_sort xs).and hne).imp_of_mem fun {a b} ha hb hab => ?_
  obtain ⟨hle, hab⟩ := hab
  cases hcmp : cmp a b with
  | lt => rfl
  | eq => exact absurd (heq a (mem_sort.1 ha) b (mem_sort.1 hb) hcmp) hab
  | gt => rw [hcmp] at hle; cases hle

section Stable

variable {cmp' : α → α → Ordering}

omit [Std.TransCmp cmp] in
theorem isLE_of_compareLex {a b : α} (h : compareLex cmp cmp' a b = .lt) : (cmp a b).isLE := by
  rw [compareLex] at h
  cases hcmp : cmp a b <;> simp_all

/-- If `x` is before all of `ys` by `cmp'`, then to insert it by `cmp`, before those with which it
compares equal, keeps the order by `cmp` and then by `cmp'`. -/
theorem pairwise_compareLex_insertSorted {x : α} {ys : List α} (hx : ∀ y ∈ ys, cmp' x y = .lt)
    (h : ys.Pairwise fun a b => compareLex cmp cmp' a b = .lt) :
    (insertSorted cmp x ys).Pairwise fun a b => compareLex cmp cmp' a b = .lt := by
  induction ys with
  | nil => simp [insertSorted]
  | cons y ys ih =>
    obtain ⟨hy, hys⟩ := List.pairwise_cons.1 h
    obtain ⟨hxy', hx'⟩ := List.forall_mem_cons.1 hx
    rw [insertSorted]
    split
    · rename_i hxy
      refine List.pairwise_cons.2 ⟨fun z hz => ?_, h⟩
      have hle : (cmp x z).isLE := by
        rcases List.mem_cons.1 hz with rfl | hz
        · exact hxy
        · exact Std.TransCmp.isLE_trans hxy (isLE_of_compareLex (hy z hz))
      have hlt := hx z hz
      rw [compareLex]
      cases hcmp : cmp x z <;> simp_all
    · rename_i hxy
      refine List.pairwise_cons.2 ⟨fun z hz => ?_, ih hx' hys⟩
      rcases List.mem_cons.1 ((insertSorted_perm cmp x ys).mem_iff.1 hz) with rfl | hz
      · rw [compareLex, @Std.OrientedCmp.eq_swap _ cmp]
        revert hxy
        cases cmp z y <;> simp [Ordering.isLE, Ordering.swap]
      · exact hy z hz

/-- Elements that `cmp` finds equal stay in the order by `cmp'` in which they stood. -/
theorem pairwise_compareLex_sort {xs : List α} (h : xs.Pairwise fun a b => cmp' a b = .lt) :
    (sort cmp xs).Pairwise fun a b => compareLex cmp cmp' a b = .lt := by
  induction xs with
  | nil => exact .nil
  | cons x xs ih =>
    obtain ⟨hx, hxs⟩ := List.pairwise_cons.1 h
    exact pairwise_compareLex_insertSorted (fun y hy => hx y (mem_sort.1 hy)) (ih hxs)

end Stable

/-- A list `ys` in order is the sorted list of its elements, if `cmp` finds only equal elements
equal. -/
theorem eq_sort_of_perm {xs ys : List α} (h : ys.Perm xs)
    (hys : ys.Pairwise fun a b => (cmp a b).isLE)
    (heq : ∀ a ∈ xs, ∀ b ∈ xs, cmp a b = .eq → a = b) : ys = sort cmp xs := by
  refine List.Perm.eq_of_pairwise (fun a b ha hb hab hba => ?_) hys (pairwise_sort xs)
    (h.trans (sort_perm cmp xs).symm)
  have hcmp : cmp a b = .eq := Std.OrientedCmp.isLE_antisymm hab hba
  exact heq a (h.mem_iff.1 ha) b (mem_sort.1 hb) hcmp

theorem sort_eq_of_perm {xs ys : List α} (h : xs.Perm ys)
    (heq : ∀ a ∈ ys, ∀ b ∈ ys, cmp a b = .eq → a = b) : sort cmp xs = sort cmp ys :=
  eq_sort_of_perm ((sort_perm cmp xs).trans h) (pairwise_sort xs) heq

/-- A list of which each element comes before all later ones has none twice. -/
theorem nodup_of_pairwise_lt {xs : List α} (h : xs.Pairwise fun a b => cmp a b = .lt) :
    xs.Nodup := h.imp fun {a b} hlt heq => by
  rw [heq, @Std.ReflCmp.compare_self _ cmp] at hlt
  cases hlt

/-- Two lists in strict order with the same elements are the same. -/
theorem eq_of_pairwise_lt {xs ys : List α} (hxs : xs.Pairwise fun a b => cmp a b = .lt)
    (hys : ys.Pairwise fun a b => cmp a b = .lt) (hmem : ∀ a, a ∈ xs ↔ a ∈ ys) : xs = ys := by
  refine List.Perm.eq_of_pairwise (fun a b _ _ hab hba => ?_) hxs hys
    ((List.perm_ext_iff_of_nodup (nodup_of_pairwise_lt hxs) (nodup_of_pairwise_lt hys)).2 hmem)
  exact absurd hba (Std.OrientedCmp.not_lt_of_lt hab)

/-- The elements of a sorted list that `p` holds of stand as if they alone had been sorted. -/
theorem filter_sort {xs : List α} (heq : ∀ a ∈ xs, ∀ b ∈ xs, cmp a b = .eq → a = b)
    (p : α → Bool) : (sort cmp xs).filter p = sort cmp (xs.filter p) := by
  refine eq_sort_of_perm ((sort_perm cmp xs).filter p) ((pairwise_sort xs).filter p) ?_
  intro a ha b hb
  exact heq a (List.mem_filter.1 ha).1 b (List.mem_filter.1 hb).1

end Order

end Propagation
