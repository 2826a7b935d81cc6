import Mathlib.Algebra.BigOperators.Group.List.Basic
import Mathlib.Algebra.GroupWithZero.Nat
import Mathlib.Data.List.Basic

/-!
# Packing a list into parcels

Items are taken in order and gathered into groups whose total weight stays within a
budget. A group is closed when the next item does not fit into it, and before an item
that is too heavy for any group, which is sent alone.

Nothing is lost and nothing is reordered (`flatMap_items_pack`), a group is never empty
and never too heavy (`group_of_mem_pack`), and of two groups in a row the first had no
room for the first item of the second (`pack_maximal`).
-/

namespace Packing

variable {α β : Type*}

inductive Parcel (α : Type*) where
  | group (items : List α)
  | single (item : α)

namespace Parcel

def items : Parcel α → List α
  | .group items => items
  | .single item => [item]

def map (f : α → β) : Parcel α → Parcel β
  | .group items => .group (items.map f)
  | .single item => .single (f item)

end Parcel

section Pack

variable (weight : α → ℕ) (budget : ℕ)

def total (items : List α) : ℕ :=
  (items.map weight).sum

def close : List α → List (Parcel α)
  | [] => []
  | a :: current => [.group (a :: current)]

/-- The parcels for the items still to come, when `current` is the open group. -/
def pack : List α → List α → List (Parcel α)
  | current, [] => close current
  | current, a :: as =>
      if budget < weight a then close current ++ .single a :: pack [] as
      else if current ≠ [] ∧ budget < total weight current + weight a then
        close current ++ pack [a] as
      else pack (current ++ [a]) as

theorem pack_of_heavy (current : List α) (a : α) (as : List α) (h : budget < weight a) :
    pack weight budget current (a :: as) =
      close current ++ .single a :: pack weight budget [] as :=
  if_pos h

theorem pack_of_full (current : List α) (a : α) (as : List α) (h : ¬ budget < weight a)
    (hfull : current ≠ [] ∧ budget < total weight current + weight a) :
    pack weight budget current (a :: as) = close current ++ pack weight budget [a] as :=
  (if_neg h).trans (if_pos hfull)

theorem pack_of_room (current : List α) (a : α) (as : List α) (h : ¬ budget < weight a)
    (hroom : ¬ (current ≠ [] ∧ budget < total weight current + weight a)) :
    pack weight budget current (a :: as) = pack weight budget (current ++ [a]) as :=
  (if_neg h).trans (if_neg hroom)

theorem flatMap_items_close (current : List α) :
    (close current).flatMap Parcel.items = current := by
  cases current with
  | nil => rfl
  | cons a current => simp [close, Parcel.items]

theorem flatMap_items_pack (current as : List α) :
    (pack weight budget current as).flatMap Parcel.items = current ++ as := by
  induction as generalizing current with
  | nil => rw [pack, flatMap_items_close, List.append_nil]
  | cons a as ih =>
      rw [pack]
      split
      · rw [List.flatMap_append, List.flatMap_cons, flatMap_items_close, ih]
        rfl
      · split
        · rw [List.flatMap_append, flatMap_items_close, ih, List.singleton_append]
        · rw [ih, List.append_assoc, List.singleton_append]

theorem total_append_singleton (current : List α) (a : α) :
    total weight (current ++ [a]) = total weight current + weight a := by
  simp [total]

/-- Items that fit one group go into one. -/
theorem pack_of_total_le (current as : List α) (h : total weight (current ++ as) ≤ budget) :
    pack weight budget current as = close (current ++ as) := by
  induction as generalizing current with
  | nil => rw [pack, List.append_nil]
  | cons a as ih =>
      have hsplit : total weight (current ++ a :: as) =
          total weight current + weight a + total weight as := by
        simp only [total, List.map_append, List.map_cons, List.sum_append, List.sum_cons,
          Nat.add_assoc]
      have hrest : current ++ a :: as = current ++ [a] ++ as := by
        rw [List.append_assoc, List.singleton_append]
      rw [pack_of_room weight budget current a as (by omega) (fun hfull => by omega), hrest]
      rw [hrest] at h
      exact ih (current ++ [a]) h

theorem pack_eq_group (items : List α) (hne : items ≠ [])
    (h : total weight items ≤ budget) : pack weight budget [] items = [.group items] := by
  rw [pack_of_total_le weight budget [] items h, List.nil_append]
  cases items with
  | nil => exact absurd rfl hne
  | cons a items => rfl

theorem total_of_mem_close (current : List α) (h : total weight current ≤ budget)
    (parcel : Parcel α) (hparcel : parcel ∈ close current) :
    ∃ items, parcel = .group items ∧ items ≠ [] ∧ total weight items ≤ budget := by
  cases current with
  | nil => cases hparcel
  | cons a current =>
      rw [List.mem_singleton.mp hparcel]
      exact ⟨a :: current, rfl, List.cons_ne_nil a current, h⟩

/-- A parcel is a group that is not empty and within the budget, or an item that exceeds
it. -/
theorem cases_of_mem_pack (current as : List α) (h : total weight current ≤ budget)
    (parcel : Parcel α) (hparcel : parcel ∈ pack weight budget current as) :
    (∃ items, parcel = .group items ∧ items ≠ [] ∧ total weight items ≤ budget) ∨
      ∃ a, parcel = .single a ∧ budget < weight a := by
  induction as generalizing current with
  | nil => exact .inl (total_of_mem_close weight budget current h parcel hparcel)
  | cons a as ih =>
      rw [pack] at hparcel
      split at hparcel
      · next hheavy =>
          rcases List.mem_append.mp hparcel with hclosed | hrest
          · exact .inl (total_of_mem_close weight budget current h parcel hclosed)
          · rcases List.mem_cons.mp hrest with rfl | hrest
            · exact .inr ⟨a, rfl, hheavy⟩
            · exact ih [] (Nat.zero_le budget) hrest
      · next hlight =>
          split at hparcel
          · rcases List.mem_append.mp hparcel with hclosed | hrest
            · exact .inl (total_of_mem_close weight budget current h parcel hclosed)
            · refine ih [a] ?_ hrest
              simp only [total, List.map_cons, List.map_nil, List.sum_singleton]
              omega
          · next hroom =>
              refine ih (current ++ [a]) ?_ hparcel
              rw [total_append_singleton]
              by_cases hempty : current = []
              · rw [hempty]
                simp only [total, List.map_nil, List.sum_nil]
                omega
              · by_contra hfull
                exact hroom ⟨hempty, by omega⟩

theorem group_of_mem_pack (as items : List α)
    (h : .group items ∈ pack weight budget [] as) :
    items ≠ [] ∧ total weight items ≤ budget := by
  rcases cases_of_mem_pack weight budget [] as (Nat.zero_le budget) _ h with
    ⟨group, hgroup, hne, hle⟩ | ⟨a, ha, -⟩
  · cases hgroup
    exact ⟨hne, hle⟩
  · cases ha

theorem single_of_mem_pack (as : List α) (a : α)
    (h : .single a ∈ pack weight budget [] as) : budget < weight a := by
  rcases cases_of_mem_pack weight budget [] as (Nat.zero_le budget) _ h with
    ⟨group, hgroup, -⟩ | ⟨b, hb, hheavy⟩
  · cases hgroup
  · cases hb
    exact hheavy

theorem head_of_pack (a : α) (current as : List α) :
    ∃ more rest, pack weight budget (a :: current) as =
      .group (a :: current ++ more) :: rest := by
  induction as generalizing current with
  | nil => exact ⟨[], [], by simp [pack, close]⟩
  | cons b as ih =>
      rw [pack]
      split
      · exact ⟨[], _, by rw [List.append_nil]; rfl⟩
      · split
        · exact ⟨[], _, by rw [List.append_nil]; rfl⟩
        · obtain ⟨more, rest, h⟩ := ih (current ++ [b])
          refine ⟨b :: more, rest, ?_⟩
          rw [List.cons_append, h]
          simp

/-- Of two groups in a row, the first had no room for the first item of the second. -/
theorem pack_maximal (current as : List α) (before after : List (Parcel α))
    (items next : List α)
    (h : pack weight budget current as = before ++ .group items :: .group next :: after) :
    ∃ a rest, next = a :: rest ∧ budget < total weight items + weight a := by
  induction as generalizing current before with
  | nil =>
      have hlength := congrArg List.length h
      cases current with
      | nil => simp [pack, close] at hlength
      | cons a current =>
          simp only [pack, close, List.length_append, List.length_cons,
            List.length_nil] at hlength
          omega
  | cons a as ih =>
      rw [pack] at h
      split at h
      · cases current with
        | nil =>
            cases before with
            | nil => cases h
            | cons first before =>
                rw [close, List.nil_append, List.cons_append, List.cons.injEq] at h
                exact ih [] before h.2
        | cons c current =>
            rw [close, List.singleton_append] at h
            cases before with
            | nil => cases h
            | cons first before =>
                rw [List.cons_append, List.cons.injEq] at h
                cases before with
                | nil => cases h.2
                | cons second before =>
                    rw [List.cons_append, List.cons.injEq] at h
                    exact ih [] before h.2.2
      · split at h
        · next hfull =>
            cases current with
            | nil => exact absurd rfl hfull.1
            | cons c current =>
                rw [close, List.singleton_append] at h
                cases before with
                | nil =>
                    obtain ⟨more, rest, hhead⟩ := head_of_pack weight budget a [] as
                    rw [hhead, List.nil_append, List.cons.injEq, Parcel.group.injEq,
                      List.cons.injEq, Parcel.group.injEq] at h
                    obtain ⟨rfl, rfl, -⟩ := h
                    exact ⟨a, more, rfl, hfull.2⟩
                | cons first before =>
                    rw [List.cons_append, List.cons.injEq] at h
                    exact ih [a] before h.2
        · exact ih (current ++ [a]) before h

end Pack

theorem pack_map (f : α → β) (weight : β → ℕ) (budget : ℕ) (current as : List α) :
    pack weight budget (current.map f) (as.map f) =
      (pack (weight ∘ f) budget current as).map (Parcel.map f) := by
  have hclose : ∀ items : List α, close (items.map f) = (close items).map (Parcel.map f) := by
    intro items
    cases items with
    | nil => rfl
    | cons a items => rfl
  have htotal : ∀ items : List α, total weight (items.map f) = total (weight ∘ f) items := by
    intro items
    rw [total, total, List.map_map]
  induction as generalizing current with
  | nil => exact hclose current
  | cons a as ih =>
      have hempty : current.map f ≠ [] ↔ current ≠ [] := by simp
      rw [List.map_cons, pack, pack, hclose, htotal]
      simp only [Function.comp_apply, hempty]
      split
      · rw [List.map_append, List.map_cons, ← ih []]
        rfl
      · split
        · rw [List.map_append, ← ih [a]]
          rfl
        · rw [← ih (current ++ [a]), List.map_append]
          rfl

end Packing
