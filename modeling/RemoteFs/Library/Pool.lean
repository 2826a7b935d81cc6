import Mathlib.Algebra.GroupWithZero.Nat
import Mathlib.Data.List.Basic
import RemoteFs.Library.Transition

/-!
# Threads over a shared state

A pool is a shared state and the local states of the threads started so far. A
move starts a thread or lets one thread take an atomic step, which may change the
shared state and its own local state; an interleaving is a list of moves.

Invariants about the pool count threads. `countP_set` and `sum_map_set` say how a count and a
sum change when one thread moves, in a form that needs no subtraction; `getElem?_set_cases`
and `getElem?_append_cases` say which threads there are after a move.
-/

/-- A shared state and the local states of the threads. -/
structure Pool (σ τ : Type*) where
  shared : σ
  threads : List τ

namespace Pool

variable {σ τ α β : Type*}

/-- Start a thread, or let the thread with an index take a step. -/
inductive Move (α β : Type*) where
  | spawn (b : β)
  | act (i : ℕ) (a : α)

def step (spawn : β → τ) (act : ℕ → α → σ → τ → Option (σ × τ)) (p : Pool σ τ) :
    Move α β → Option (Pool σ τ)
  | .spawn b => some { p with threads := p.threads ++ [spawn b] }
  | .act i a =>
      p.threads[i]?.bind fun t =>
        (act i a p.shared t).map fun next =>
          { shared := next.1, threads := p.threads.set i next.2 }

/-- What a step can do. -/
theorem step_cases {spawn : β → τ} {act : ℕ → α → σ → τ → Option (σ × τ)} {p p' : Pool σ τ}
    {move : Move α β} (h : p.step spawn act move = some p') :
    (∃ b, move = .spawn b ∧ p' = { p with threads := p.threads ++ [spawn b] }) ∨
      ∃ i a t s t', move = .act i a ∧ p.threads[i]? = some t ∧
        act i a p.shared t = some (s, t') ∧
        p' = { shared := s, threads := p.threads.set i t' } := by
  cases move with
  | spawn b =>
      rw [step, Option.some.injEq] at h
      exact .inl ⟨b, rfl, h.symm⟩
  | act i a =>
      rw [step, Option.bind_eq_some_iff] at h
      obtain ⟨t, ht, h⟩ := h
      obtain ⟨⟨s, t'⟩, hact, rfl⟩ := Option.map_eq_some_iff.mp h
      exact .inr ⟨i, a, t, s, t', rfl, ht, hact, rfl⟩

theorem countP_set (p : τ → Bool) {ts : List τ} {i : ℕ} {t : τ} (h : ts[i]? = some t) (t' : τ) :
    (ts.set i t').countP p + (if p t then 1 else 0) =
      ts.countP p + (if p t' then 1 else 0) := by
  induction ts generalizing i with
  | nil => simp at h
  | cons u ts ih =>
      cases i with
      | zero =>
          rw [List.getElem?_cons_zero, Option.some.injEq] at h
          rw [List.set_cons_zero, List.countP_cons, List.countP_cons, h]
          omega
      | succ i =>
          rw [List.getElem?_cons_succ] at h
          have hrest := ih h
          rw [List.set_cons_succ, List.countP_cons, List.countP_cons]
          omega

theorem sum_map_set (f : τ → ℕ) {ts : List τ} {i : ℕ} {t : τ} (h : ts[i]? = some t) (t' : τ) :
    ((ts.set i t').map f).sum + f t = (ts.map f).sum + f t' := by
  induction ts generalizing i with
  | nil => simp at h
  | cons u ts ih =>
      cases i with
      | zero =>
          rw [List.getElem?_cons_zero, Option.some.injEq] at h
          rw [List.set_cons_zero, List.map_cons, List.sum_cons, List.map_cons, List.sum_cons, h]
          omega
      | succ i =>
          rw [List.getElem?_cons_succ] at h
          have hrest := ih h
          rw [List.set_cons_succ, List.map_cons, List.sum_cons, List.map_cons, List.sum_cons]
          omega

theorem countP_set_eq {p : τ → Bool} {ts : List τ} {i : ℕ} {t t' : τ} (h : ts[i]? = some t)
    (hp : p t' = p t) : (ts.set i t').countP p = ts.countP p := by
  have hcount := countP_set p h t'
  rw [hp] at hcount
  omega

theorem countP_set_le {p : τ → Bool} {ts : List τ} {i : ℕ} {t t' : τ} (h : ts[i]? = some t)
    (hp : p t' = true → p t = true) : (ts.set i t').countP p ≤ ts.countP p := by
  have hcount := countP_set p h t'
  by_cases hnew : p t' = true
  · rw [hnew, hp hnew] at hcount
    omega
  · rw [if_neg hnew] at hcount
    omega

theorem countP_set_le_succ {p : τ → Bool} {ts : List τ} {i : ℕ} {t : τ} (h : ts[i]? = some t)
    (t' : τ) : (ts.set i t').countP p ≤ ts.countP p + 1 := by
  have hcount := countP_set p h t'
  split at hcount <;> split at hcount <;> omega

theorem countP_le_add {p q r : τ → Bool} {ts : List τ}
    (h : ∀ t ∈ ts, p t = true → q t = true ∨ r t = true) :
    ts.countP p ≤ ts.countP q + ts.countP r := by
  induction ts with
  | nil => exact Nat.zero_le _
  | cons t ts ih =>
      have hrest := ih fun u hu => h u (List.mem_cons_of_mem t hu)
      have hhead := h t (List.mem_cons_self ..)
      rw [List.countP_cons, List.countP_cons, List.countP_cons]
      by_cases hp : p t = true
      · obtain hq | hr := hhead hp
        · rw [if_pos hp, if_pos hq]
          omega
        · rw [if_pos hp, if_pos hr]
          omega
      · rw [if_neg hp]
        omega

theorem countP_pos_of_getElem? {p : τ → Bool} {ts : List τ} {i : ℕ} {t : τ}
    (h : ts[i]? = some t) (hp : p t = true) : 0 < ts.countP p :=
  List.countP_pos_iff.mpr ⟨t, List.mem_of_getElem? h, hp⟩

theorem eq_of_countP_le_one {p : τ → Bool} {ts : List τ} (h : ts.countP p ≤ 1) {i j : ℕ}
    {t u : τ} (hi : ts[i]? = some t) (hj : ts[j]? = some u) (ht : p t = true)
    (hu : p u = true) : i = j := by
  induction ts generalizing i j with
  | nil => cases hi
  | cons v ts ih =>
      rw [List.countP_cons] at h
      cases i with
      | zero =>
          cases j with
          | zero => rfl
          | succ j =>
              cases hi
              rw [if_pos ht] at h
              rw [List.getElem?_cons_succ] at hj
              have hpos := countP_pos_of_getElem? hj hu
              omega
      | succ i =>
          cases j with
          | zero =>
              cases hj
              rw [if_pos hu] at h
              rw [List.getElem?_cons_succ] at hi
              have hpos := countP_pos_of_getElem? hi ht
              omega
          | succ j => exact congrArg Nat.succ (ih (by omega) hi hj)

theorem getElem?_set_cases {ts : List τ} {i j : ℕ} {t' u : τ}
    (h : (ts.set i t')[j]? = some u) : (j = i ∧ u = t') ∨ (j ≠ i ∧ ts[j]? = some u) := by
  rw [List.getElem?_set] at h
  split at h
  · next heq =>
      split at h
      · exact .inl ⟨heq.symm, (Option.some.inj h).symm⟩
      · cases h
  · next hne => exact .inr ⟨fun heq => hne heq.symm, h⟩

theorem getElem?_set_same {ts : List τ} {i : ℕ} {t : τ} (h : ts[i]? = some t) (t' : τ) :
    (ts.set i t')[i]? = some t' := by
  rw [List.getElem?_set, if_pos rfl, if_pos (List.getElem?_eq_some_iff.mp h).1]

theorem modify_eq_set {ts : List τ} {i : ℕ} {t : τ} (h : ts[i]? = some t) (f : τ → τ) :
    ts.modify i f = ts.set i (f t) := by
  refine List.ext_getElem? fun j => ?_
  by_cases hj : i = j
  · subst hj
    rw [getElem?_set_same h, List.getElem?_modify_eq, h]
    rfl
  · rw [List.getElem?_modify_ne f ts hj, List.getElem?_set_ne hj]

theorem getElem?_append_cases {ts : List τ} {t u : τ} {j : ℕ}
    (h : (ts ++ [t])[j]? = some u) : ts[j]? = some u ∨ u = t := by
  rw [List.getElem?_append] at h
  split at h
  · exact .inl h
  · exact .inr (List.mem_singleton.mp (List.mem_of_getElem? h))

/-! ### The last thread alone -/

theorem getElem?_concat (ts : List τ) (t : τ) : (ts ++ [t])[ts.length]? = some t :=
  List.getElem?_concat_length ..

theorem set_concat (ts : List τ) (t t' : τ) : (ts ++ [t]).set ts.length t' = ts ++ [t'] := by
  rw [List.set_append_right _ _ (Nat.le_refl _), Nat.sub_self]
  rfl

/-- A run in which only the last thread moves. -/
theorem run_last (spawn : β → τ) {act : ℕ → α → σ → τ → Option (σ × τ)} (ts : List τ)
    {s s' : σ} {t t' : τ} (actions : List α)
    (h : Transition.run (fun (st : σ × τ) a => act ts.length a st.1 st.2) (s, t) actions =
      some (s', t')) :
    Transition.run (step spawn act) { shared := s, threads := ts ++ [t] }
        (actions.map (.act ts.length)) =
      some { shared := s', threads := ts ++ [t'] } := by
  induction actions generalizing s t with
  | nil =>
      rw [Transition.run_nil, Option.some.injEq] at h
      obtain ⟨rfl, rfl⟩ := Prod.mk.inj h
      rfl
  | cons a actions ih =>
      obtain ⟨⟨u, v⟩, hact, hrun⟩ := (Transition.run_cons_eq_some_iff _ _ _ _ _).mp h
      refine (Transition.run_cons_eq_some_iff _ _ _ _ _).mpr
        ⟨{ shared := u, threads := ts ++ [v] }, ?_, ih hrun⟩
      rw [step, getElem?_concat, Option.bind_some, hact, Option.map_some, set_concat]

end Pool
