import Mathlib.Data.ENat.Lattice
import Mathlib.Data.Nat.Basic

/-!
# Retry loops

An operation is attempted up to a limit. `op attempt` is what the attempt of that
number does; a failure that is retryable is followed by another attempt while the
limit allows one, and every other failure ends the loop.

The loop passes over the transient failures that the limit allows (`loop_add`);
`made` lists the attempts it makes. How many attempts a limit leaves is the minimum of the
limit and one more than the number of initial transient failures (`eq_min_of_stops`).
-/

namespace Retry

variable {ε α : Type*} (retryable : ε → Bool) (limit : ℕ) (op : ℕ → Except ε α)

/-- The loop from a given attempt on. It fails with the number of its last attempt. -/
def loop (attempt : ℕ) : Except (ℕ × ε) α :=
  match op attempt with
  | .ok a => .ok a
  | .error e =>
      if attempt < limit ∧ retryable e = true then loop (attempt + 1)
      else .error (attempt, e)
termination_by limit - attempt

def made (attempt : ℕ) : List ℕ :=
  match op attempt with
  | .ok _ => [attempt]
  | .error e =>
      if attempt < limit ∧ retryable e = true then attempt :: made (attempt + 1)
      else [attempt]
termination_by limit - attempt

/-- A failure after which the operation is attempted again. -/
def Transient (result : Except ε α) : Prop :=
  ∃ e, result = .error e ∧ retryable e = true

variable {retryable limit op}

theorem loop_of_ok {attempt : ℕ} {a : α} (h : op attempt = .ok a) :
    loop retryable limit op attempt = .ok a := by
  rw [loop, h]

theorem loop_of_transient {attempt : ℕ} (hlimit : attempt < limit)
    (h : Transient retryable (op attempt)) :
    loop retryable limit op attempt = loop retryable limit op (attempt + 1) := by
  obtain ⟨e, he, hretry⟩ := h
  rw [loop, he]
  exact if_pos ⟨hlimit, hretry⟩

theorem loop_of_last {attempt : ℕ}
    (h : limit ≤ attempt ∨ ¬ Transient retryable (op attempt)) :
    loop retryable limit op attempt = (op attempt).mapError fun e => (attempt, e) := by
  rw [loop]
  cases hop : op attempt with
  | ok a => rfl
  | error e =>
      refine if_neg ?_
      rintro ⟨hlimit, hretry⟩
      rcases h with hle | hlast
      · omega
      · exact hlast ⟨e, hop, hretry⟩

theorem loop_add {attempt : ℕ} (k : ℕ) (hlimit : attempt + k ≤ limit)
    (h : ∀ i < k, Transient retryable (op (attempt + i))) :
    loop retryable limit op attempt = loop retryable limit op (attempt + k) := by
  induction k with
  | zero => rfl
  | succ k ih =>
      rw [ih (by omega) fun i hi => h i (by omega),
        loop_of_transient (by omega) (h k (by omega)), Nat.add_assoc]

theorem mem_made_self (attempt : ℕ) : attempt ∈ made retryable limit op attempt := by
  rw [made]
  split
  · exact List.mem_cons_self
  · split
    · exact List.mem_cons_self
    · exact List.mem_cons_self

theorem two_le_length_made_iff (attempt : ℕ) :
    2 ≤ (made retryable limit op attempt).length ↔
      attempt < limit ∧ Transient retryable (op attempt) := by
  rw [made]
  cases hop : op attempt with
  | ok a => simp [Transient]
  | error e =>
      by_cases hagain : attempt < limit ∧ retryable e = true
      · have hrest : 1 ≤ (made retryable limit op (attempt + 1)).length :=
          List.length_pos_of_mem (mem_made_self (attempt + 1))
        simp [hagain, hrest, Transient]
      · simp [hagain, Transient]

/-- The number of initial transient results, `⊤` when there are no others. -/
noncomputable def initialRun (retryable : ε → Bool) (results : ℕ → Except ε α) : ℕ∞ :=
  ⨅ (n : ℕ) (_ : ¬ Transient retryable (results n)), (n : ℕ∞)

theorem le_initialRun_iff {results : ℕ → Except ε α} {n : ℕ} :
    (n : ℕ∞) ≤ initialRun retryable results ↔ ∀ i < n, Transient retryable (results i) := by
  rw [initialRun, le_iInf₂_iff]
  constructor
  · intro h i hi
    by_contra hstop
    exact absurd (Nat.cast_le.mp (h i hstop)) (by omega)
  · intro h i hstop
    rw [Nat.cast_le]
    by_contra hlt
    exact hstop (h i (by omega))

theorem initialRun_le {results : ℕ → Except ε α} {n : ℕ}
    (h : ¬ Transient retryable (results n)) : initialRun retryable results ≤ n :=
  iInf₂_le n h

/-- A loop that passes over transient results only, and stops at the limit or at another
result, makes the minimum number of attempts. -/
theorem eq_min_of_stops {results : ℕ → Except ε α} {k : ℕ} (hlimit : k + 1 ≤ limit)
    (hpassed : ∀ i < k, Transient retryable (results i))
    (hstop : k + 1 = limit ∨ ¬ Transient retryable (results k)) :
    ((k + 1 : ℕ) : ℕ∞) = min (limit : ℕ∞) (1 + initialRun retryable results) := by
  have hrun : (k : ℕ∞) ≤ initialRun retryable results := le_initialRun_iff.mpr hpassed
  have hle : ((k + 1 : ℕ) : ℕ∞) ≤ 1 + initialRun retryable results := by
    rw [Nat.cast_add, Nat.cast_one, add_comm]
    exact add_le_add_right hrun 1
  refine le_antisymm (le_min (Nat.cast_le.mpr hlimit) hle) ?_
  rcases hstop with hend | hother
  · exact (min_le_left _ _).trans (Nat.cast_le.mpr hend.ge)
  · refine (min_le_right _ _).trans ?_
    rw [Nat.cast_add, Nat.cast_one, add_comm]
    exact add_le_add_left (initialRun_le hother) 1

end Retry
