import Mathlib.Data.List.Sort

/-!
# Sorting by a key

`sortBy key xs` is the stable sort of `xs` by the key of its elements. As long
as the keys are pairwise different the result depends on `xs` only up to
permutation: it is the one strictly increasing arrangement of its elements.
Everything that is proved about a sorted list below goes through that
uniqueness.
-/

namespace SortBy

variable {α β κ : Type*} [LinearOrder κ]

def sortBy (key : α → κ) (xs : List α) : List α :=
  xs.insertionSort (fun a b => key a ≤ key b)

instance keyTotal (key : α → κ) : Std.Total (fun a b : α => key a ≤ key b) :=
  ⟨fun a b => le_total (key a) (key b)⟩

instance keyTrans (key : α → κ) : IsTrans α (fun a b : α => key a ≤ key b) :=
  ⟨fun _ _ _ hab hbc => le_trans hab hbc⟩

theorem sortBy_perm (key : α → κ) (xs : List α) : (sortBy key xs).Perm xs :=
  List.perm_insertionSort _ xs

@[simp] theorem mem_sortBy (key : α → κ) (xs : List α) (a : α) :
    a ∈ sortBy key xs ↔ a ∈ xs :=
  (sortBy_perm key xs).mem_iff

theorem sortBy_pairwise_le (key : α → κ) (xs : List α) :
    (sortBy key xs).Pairwise (fun a b => key a ≤ key b) :=
  List.pairwise_insertionSort _ xs

theorem sortBy_nodup_iff (key : α → κ) (xs : List α) :
    ((sortBy key xs).map key).Nodup ↔ (xs.map key).Nodup :=
  ((sortBy_perm key xs).map key).nodup_iff

theorem sortBy_pairwise_lt (key : α → κ) (xs : List α) (h : (xs.map key).Nodup) :
    (sortBy key xs).Pairwise (fun a b => key a < key b) := by
  have hne : (sortBy key xs).Pairwise (fun a b => key a ≠ key b) := by
    have hnodup := (sortBy_nodup_iff key xs).mpr h
    exact List.pairwise_map.mp hnodup
  exact ((sortBy_pairwise_le key xs).and hne).imp fun hab => lt_of_le_of_ne hab.1 hab.2

/-- Strictly increasing arrangements of the same elements are equal. -/
theorem eq_of_perm_of_pairwise_lt (key : α → κ) {xs ys : List α}
    (hx : xs.Pairwise (fun a b => key a < key b))
    (hy : ys.Pairwise (fun a b => key a < key b)) (h : xs.Perm ys) : xs = ys := by
  refine List.Perm.eq_of_pairwise ?_ hx hy h
  intro a b _ _ hab hba
  exact absurd hab (lt_asymm hba)

theorem eq_sortBy_of_perm (key : α → κ) {xs ys : List α}
    (hy : ys.Pairwise (fun a b => key a < key b)) (h : ys.Perm xs) :
    ys = sortBy key xs := by
  have hnodup : (xs.map key).Nodup := by
    rw [← (h.map key).nodup_iff]
    exact List.pairwise_map.mpr (hy.imp fun hab => ne_of_lt hab)
  exact eq_of_perm_of_pairwise_lt key hy (sortBy_pairwise_lt key xs hnodup)
    (h.trans (sortBy_perm key xs).symm)

theorem sortBy_eq_of_perm (key : α → κ) {xs ys : List α} (h : xs.Perm ys)
    (hnodup : (xs.map key).Nodup) : sortBy key xs = sortBy key ys :=
  eq_sortBy_of_perm key (sortBy_pairwise_lt key xs hnodup) ((sortBy_perm key xs).trans h)

/-- A key that tells all elements apart makes the sort forget the order, whether or
not an element occurs twice. -/
theorem sortBy_eq_of_injective (key : α → κ) (hinj : Function.Injective key)
    {xs ys : List α} (h : xs.Perm ys) : sortBy key xs = sortBy key ys := by
  refine List.Perm.eq_of_pairwise ?_ (sortBy_pairwise_le key xs) (sortBy_pairwise_le key ys)
    ((sortBy_perm key xs).trans (h.trans (sortBy_perm key ys).symm))
  intro a b _ _ hab hba
  exact hinj (le_antisymm hab hba)

theorem map_sortBy (key : α → κ) (key' : β → κ) (f : α → β) (xs : List α)
    (h : ∀ a, key' (f a) = key a) :
    (sortBy key xs).map f = sortBy key' (xs.map f) := by
  refine List.map_insertionSort _ _ f xs ?_
  intro a _ b _
  simp [h]

end SortBy
