import RemoteFs.Library.Pool

/-!
# Exclusive locks over threads

A lock is free or names the thread that holds it. `Held` says that the lock names
exactly the threads that hold it, where `holds` reads off the local state of a thread
whether it does. So at most one thread holds it (`Held.unique`). The invariant is kept by
every move of a thread that does not take the lock from another (`Held.settle`): one that
keeps what it holds, one that takes a free lock, and one that lets go, however that comes
about.
-/

namespace Lock

variable {τ : Type*}

def free (i : ℕ) (lock : Option ℕ) : Option ℕ :=
  if lock = some i then none else lock

/-- The lock after a thread moved to another local state: the thread has it when it holds
it, and it is free when the thread held it and does not hold it any more. -/
def settle (holds : τ → Bool) (i : ℕ) (t' : τ) (lock : Option ℕ) : Option ℕ :=
  if holds t' then some i else free i lock

/-- The lock names exactly the threads that hold it. -/
def Held (holds : τ → Bool) (lock : Option ℕ) (ts : List τ) : Prop :=
  ∀ i, lock = some i ↔ ∃ t, ts[i]? = some t ∧ holds t = true

variable {holds : τ → Bool} {lock : Option ℕ} {ts : List τ} {i : ℕ} {t t' : τ}

theorem held_nil (holds : τ → Bool) : Held holds none [] := by
  intro i
  simp

namespace Held

theorem eq_some (h : Held holds lock ts) (hi : ts[i]? = some t) (ht : holds t = true) :
    lock = some i :=
  (h i).mpr ⟨t, hi, ht⟩

theorem unique (h : Held holds lock ts) {j : ℕ} {u : τ} (hi : ts[i]? = some t)
    (ht : holds t = true) (hj : ts[j]? = some u) (hu : holds u = true) : i = j := by
  have hlock := h.eq_some hi ht
  rw [h.eq_some hj hu, Option.some.injEq] at hlock
  exact hlock.symm

theorem spawn (h : Held holds lock ts) (hnew : holds t' = false) :
    Held holds lock (ts ++ [t']) := by
  intro j
  rw [h j]
  constructor
  · rintro ⟨u, hu, hholds⟩
    exact ⟨u, by rw [List.getElem?_append_left (List.getElem?_eq_some_iff.mp hu).1, hu], hholds⟩
  · rintro ⟨u, hu, hholds⟩
    obtain hold | rfl := Pool.getElem?_append_cases hu
    · exact ⟨u, hold, hholds⟩
    · rw [hnew] at hholds
      cases hholds

/-- A thread that takes the lock held it before, or the lock was free. -/
theorem settle (h : Held holds lock ts) (hi : ts[i]? = some t)
    (htaken : holds t' = true → holds t = true ∨ lock = none) :
    Held holds (settle holds i t' lock) (ts.set i t') := by
  intro j
  rw [Lock.settle]
  by_cases hnew : holds t' = true
  · rw [if_pos hnew, Option.some.injEq]
    constructor
    · rintro rfl
      exact ⟨t', Pool.getElem?_set_same hi t', hnew⟩
    · rintro ⟨u, hu, hholds⟩
      obtain ⟨rfl, -⟩ | ⟨-, hold⟩ := Pool.getElem?_set_cases hu
      · rfl
      · have hlock := h.eq_some hold hholds
        obtain ht | hfree := htaken hnew
        · rw [h.eq_some hi ht, Option.some.injEq] at hlock
          exact hlock
        · rw [hfree] at hlock
          cases hlock
  · rw [if_neg hnew, free]
    constructor
    · intro hlock
      split at hlock
      · cases hlock
      · next hother =>
          obtain ⟨u, hu, hholds⟩ := (h j).mp hlock
          have hj : i ≠ j := by
            rintro rfl
            exact hother hlock
          exact ⟨u, by rw [List.getElem?_set_ne hj, hu], hholds⟩
    · rintro ⟨u, hu, hholds⟩
      obtain ⟨-, rfl⟩ | ⟨hne, hold⟩ := Pool.getElem?_set_cases hu
      · exact absurd hholds hnew
      · have hlock := h.eq_some hold hholds
        have hother : lock ≠ some i := by
          rw [hlock]
          exact fun heq => hne (Option.some.inj heq)
        rw [if_neg hother, hlock]

end Held

end Lock
