import Mathlib.Data.List.Basic
import Mathlib.Data.List.TakeDrop

/-!
# Reading a list page by page

A reader keeps a position in a list and what it has received. At each turn it asks for the
entries from its position on, takes as many as the page holds and moves behind the last
one; an empty page ends the reading.

`reads_foldl` says that what was received is always the list up to the position, whatever
the capacities are, and `ended_foldl` that the reading ends once there were more pages of
at least one entry than the list has entries.
-/

namespace Paging

variable {α : Type*}

structure Reader (α : Type*) where
  position : ℕ
  received : List α
  ended : Bool

def start : Reader α where
  position := 0
  received := []
  ended := false

def page (xs : List α) (position capacity : ℕ) : List α :=
  (xs.drop position).take capacity

def turn (xs : List α) (r : Reader α) (capacity : ℕ) : Reader α :=
  if r.ended then r
  else
    { position := r.position + (page xs r.position capacity).length
      received := r.received ++ page xs r.position capacity
      ended := (page xs r.position capacity).isEmpty }

/-- What was received is the list up to the position, and all of it at the end. -/
structure Reads (xs : List α) (r : Reader α) : Prop where
  position_le : r.position ≤ xs.length
  received_eq : r.received = xs.take r.position
  ended_at : r.ended = true → r.position = xs.length

theorem reads_start (xs : List α) : Reads xs start where
  position_le := Nat.zero_le _
  received_eq := rfl
  ended_at h := nomatch h

theorem length_page (xs : List α) (position capacity : ℕ) :
    (page xs position capacity).length = min capacity (xs.length - position) := by
  rw [page, List.length_take, List.length_drop]

theorem page_isEmpty_iff {xs : List α} {position capacity : ℕ} (hcapacity : 1 ≤ capacity)
    (hle : position ≤ xs.length) :
    (page xs position capacity).isEmpty = true ↔ position = xs.length := by
  rw [List.isEmpty_iff_length_eq_zero, length_page]
  omega

theorem Reads.turn {xs : List α} {r : Reader α} (h : Reads xs r) {capacity : ℕ}
    (hcapacity : 1 ≤ capacity) : Reads xs (turn xs r capacity) := by
  rw [Paging.turn]
  split
  · exact h
  · constructor
    · have hlength := length_page xs r.position capacity
      have hle := h.position_le
      simp only
      omega
    · change r.received ++ (xs.drop r.position).take capacity =
        xs.take (r.position + (page xs r.position capacity).length)
      have hle := h.position_le
      rw [h.received_eq, length_page, ← List.take_add, List.take_eq_take_iff]
      omega
    · intro hended
      have hend := (page_isEmpty_iff hcapacity h.position_le).mp hended
      change r.position + (page xs r.position capacity).length = _
      rw [length_page]
      omega

/-- What a whole reading preserves. -/
theorem reads_foldl {xs : List α} :
    ∀ (capacities : List ℕ) (r : Reader α), (∀ capacity ∈ capacities, 1 ≤ capacity) →
      Reads xs r → Reads xs (capacities.foldl (turn xs) r)
  | [], _, _, h => h
  | capacity :: capacities, r, hall, h =>
      reads_foldl capacities (turn xs r capacity)
        (fun c hc => hall c (List.mem_cons_of_mem capacity hc))
        (h.turn (hall capacity (List.mem_cons_self ..)))

theorem Reads.progress {xs : List α} {r : Reader α} (h : Reads xs r) {capacity : ℕ}
    (hcapacity : 1 ≤ capacity) :
    (Paging.turn xs r capacity).ended = true ∨
      r.position + 1 ≤ (Paging.turn xs r capacity).position := by
  rw [Paging.turn]
  split
  · next hended => exact .inl hended
  · by_cases hend : r.position = xs.length
    · exact .inl ((page_isEmpty_iff hcapacity h.position_le).mpr hend)
    · refine .inr ?_
      have hle := h.position_le
      have hlength := length_page xs r.position capacity
      simp only
      omega

theorem ended_foldl_of_ended (xs : List α) {r : Reader α} (h : r.ended = true)
    (capacities : List ℕ) : capacities.foldl (turn xs) r = r := by
  induction capacities with
  | nil => rfl
  | cons capacity capacities ih =>
      rw [List.foldl_cons, turn, if_pos h, ih]

theorem progress_foldl {xs : List α} :
    ∀ (capacities : List ℕ) (r : Reader α), (∀ capacity ∈ capacities, 1 ≤ capacity) →
      Reads xs r → (capacities.foldl (turn xs) r).ended = true ∨
        r.position + capacities.length ≤ (capacities.foldl (turn xs) r).position
  | [], _, _, _ => .inr (Nat.le_refl _)
  | capacity :: capacities, r, hall, h => by
      have hcapacity := hall capacity (List.mem_cons_self ..)
      have hrest := progress_foldl capacities (turn xs r capacity)
        (fun c hc => hall c (List.mem_cons_of_mem capacity hc)) (h.turn hcapacity)
      rw [List.foldl_cons, List.length_cons]
      obtain hended | hmoved := h.progress hcapacity
      · rw [ended_foldl_of_ended xs hended]
        exact .inl hended
      · obtain hended | hle := hrest
        · exact .inl hended
        · exact .inr (by omega)

/-- The reading ends after at most one page more than the list has entries. -/
theorem ended_foldl {xs : List α} {capacities : List ℕ} {r : Reader α}
    (hall : ∀ capacity ∈ capacities, 1 ≤ capacity) (h : Reads xs r)
    (hlength : xs.length < capacities.length) :
    (capacities.foldl (turn xs) r).ended = true := by
  obtain hended | hmoved := progress_foldl capacities r hall h
  · exact hended
  · have hle := (reads_foldl capacities r hall h).position_le
    omega

/-- What a reading from the start has received: a beginning of the list, and all of it
once a page was empty. -/
theorem received_foldl_start (xs : List α) {capacities : List ℕ}
    (hall : ∀ capacity ∈ capacities, 1 ≤ capacity) :
    (∃ count, (capacities.foldl (turn xs) start).received = xs.take count) ∧
      ((capacities.foldl (turn xs) start).ended = true →
        (capacities.foldl (turn xs) start).received = xs) := by
  have h := reads_foldl capacities start hall (reads_start xs)
  refine ⟨⟨_, h.received_eq⟩, fun hended => ?_⟩
  rw [h.received_eq, h.ended_at hended, List.take_length]

end Paging
