import Mathlib.Data.List.Nodup
import Mathlib.Data.List.Perm.Basic

/-!
# Keyed lists

A list of pairs with pairwise different keys is a finite map: looking up a key
that occurs gives its value, whatever the order of the list. A permutation of an
image is the image of a permutation, which lets results about a rearranged list
be stated about the elements it came from.
-/

namespace Keyed

variable {α β κ ν : Type*}

theorem lookup_eq_some_of_mem [BEq κ] [LawfulBEq κ] {pairs : List (κ × ν)}
    (h : (pairs.map Prod.fst).Nodup) {key : κ} {value : ν} (hmem : (key, value) ∈ pairs) :
    pairs.lookup key = some value := by
  obtain ⟨before, after, rfl⟩ := List.append_of_mem hmem
  rw [List.lookup_eq_some_iff]
  refine ⟨before, after, rfl, ?_⟩
  intro pair hpair
  rw [List.map_append, List.nodup_append] at h
  have hne := h.2.2 pair.1 (List.mem_map_of_mem hpair) key (by simp)
  simpa using hne.symm

theorem mem_of_lookup_eq_some [BEq κ] [LawfulBEq κ] {pairs : List (κ × ν)} {key : κ} {value : ν}
    (h : pairs.lookup key = some value) : (key, value) ∈ pairs := by
  obtain ⟨before, after, rfl, -⟩ := List.lookup_eq_some_iff.mp h
  simp

theorem eq_of_mem_of_nodup (key : α → κ) {xs : List α} (h : (xs.map key).Nodup) {a b : α}
    (ha : a ∈ xs) (hb : b ∈ xs) (hkey : key a = key b) : a = b :=
  List.inj_on_of_nodup_map h ha hb hkey

/-- A permutation of an image is the image of a permutation. -/
theorem exists_perm_map_eq (f : α → β) {xs : List β} {ys : List α} (h : xs.Perm (ys.map f)) :
    ∃ zs : List α, zs.Perm ys ∧ xs = zs.map f := by
  have hrel : List.Forall₂ (fun b a => b = f a) (ys.map f) ys := by
    rw [List.forall₂_map_left_iff, List.forall₂_same]
    intro a _
    rfl
  obtain ⟨zs, hforall, hperm⟩ := List.perm_comp_forall₂ h hrel
  refine ⟨zs, hperm, ?_⟩
  clear hperm hrel h
  induction hforall with
  | nil => rfl
  | cons hab _ ih => rw [hab, ih, List.map_cons]

end Keyed
