import Mathlib.Data.List.Basic
import Mathlib.Order.Defs.Unbundled

/-!
# Transition systems

A system is a partial step function `step : σ → α → Option σ`: the action `a`
is enabled in the state `s` when `step s a` is present. `run step s as` plays a
list of actions and is absent as soon as one of them is not enabled.

The rules are the only way runs are reasoned about. `run_invariant` lifts what one
step preserves to every state a run reaches, `run_invariant_of_mem` does so for runs
whose actions all meet a condition, `run_rel` lifts a reflexive and transitive relation
between a state and its successor to the two ends of a run, `run_simulation` a
function that the steps compute to a fold that the run computes, and `run_embed` a run to
one of another system.
-/

namespace Transition

variable {σ α : Type*}

/-- Play a list of actions. -/
def run (step : σ → α → Option σ) : σ → List α → Option σ
  | s, [] => some s
  | s, a :: as => (step s a).bind fun s' => run step s' as

@[simp] theorem run_nil (step : σ → α → Option σ) (s : σ) : run step s [] = some s := rfl

theorem run_cons (step : σ → α → Option σ) (s : σ) (a : α) (as : List α) :
    run step s (a :: as) = (step s a).bind fun s' => run step s' as := rfl

theorem run_cons_eq_some_iff (step : σ → α → Option σ) (s s' : σ) (a : α) (as : List α) :
    run step s (a :: as) = some s' ↔
      ∃ t, step s a = some t ∧ run step t as = some s' := by
  rw [run_cons, Option.bind_eq_some_iff]

theorem run_singleton (step : σ → α → Option σ) (s : σ) (a : α) : run step s [a] = step s a := by
  rw [run_cons]
  exact Option.bind_fun_some _

theorem run_append (step : σ → α → Option σ) (s t : σ) (as bs : List α)
    (h : run step s as = some t) : run step s (as ++ bs) = run step t bs := by
  induction as generalizing s with
  | nil =>
      rw [run_nil, Option.some.injEq] at h
      rw [List.nil_append, h]
  | cons a as ih =>
      obtain ⟨u, hu, hrun⟩ := (run_cons_eq_some_iff step s t a as).mp h
      rw [List.cons_append, run_cons, hu]
      exact ih u hrun

/-- What holds at the start and is kept by every step of a list holds at the
end. -/
theorem run_invariant_of_mem {step : σ → α → Option σ} {Inv : σ → Prop} {P : α → Prop}
    (hstep : ∀ s a s', P a → Inv s → step s a = some s' → Inv s') :
    ∀ (as : List α) (s s' : σ), (∀ a ∈ as, P a) → Inv s → run step s as = some s' → Inv s'
  | [], s, s', _, hs, h => by
      rw [run_nil, Option.some.injEq] at h
      exact h ▸ hs
  | a :: as, s, s', hall, hs, h => by
      obtain ⟨t, ht, hrun⟩ := (run_cons_eq_some_iff step s s' a as).mp h
      exact run_invariant_of_mem hstep as t s' (fun b hb => hall b (List.mem_cons_of_mem a hb))
        (hstep s a t (hall a (List.mem_cons_self ..)) hs ht) hrun

/-- What holds at the start and is kept by every step holds at the end. -/
theorem run_invariant {step : σ → α → Option σ} {I : σ → Prop}
    (hstep : ∀ s a s', I s → step s a = some s' → I s')
    (as : List α) (s s' : σ) (hs : I s) (h : run step s as = some s') : I s' :=
  run_invariant_of_mem (P := fun _ => True) (fun s a s' _ => hstep s a s') as s s'
    (fun _ _ => trivial) hs h

/-- A step that computes a function of a view of the state makes a run compute the fold of
that function. -/
theorem run_simulation {τ : Type*} {step : σ → α → Option σ} {Inv : σ → Prop} {view : σ → τ}
    {f : τ → α → τ}
    (hstep : ∀ s a s', Inv s → step s a = some s' → Inv s' ∧ view s' = f (view s) a) :
    ∀ (as : List α) (s s' : σ), Inv s → run step s as = some s' →
      Inv s' ∧ view s' = as.foldl f (view s)
  | [], s, s', hs, h => by
      rw [run_nil, Option.some.injEq] at h
      exact h ▸ ⟨hs, rfl⟩
  | a :: as, s, s', hs, h => by
      obtain ⟨t, ht, hrun⟩ := (run_cons_eq_some_iff step s s' a as).mp h
      obtain ⟨hinv, hview⟩ := hstep s a t hs ht
      rw [List.foldl_cons, ← hview]
      exact run_simulation hstep as t s' hinv hrun

theorem run_enabled {step : σ → α → Option σ} {Inv : σ → Prop} {P : α → Prop}
    (hstep : ∀ s a, P a → Inv s → ∃ s', step s a = some s' ∧ Inv s') :
    ∀ (as : List α) (s : σ), (∀ a ∈ as, P a) → Inv s → ∃ s', run step s as = some s'
  | [], s, _, _ => ⟨s, rfl⟩
  | a :: as, s, hall, hs => by
      obtain ⟨t, ht, hinv⟩ := hstep s a (hall a (List.mem_cons_self ..)) hs
      obtain ⟨s', hs'⟩ := run_enabled hstep as t
        (fun b hb => hall b (List.mem_cons_of_mem a hb)) hinv
      exact ⟨s', (run_cons_eq_some_iff step s s' a as).mpr ⟨t, ht, hs'⟩⟩

theorem run_total (step : σ → α → σ) (s : σ) (as : List α) :
    run (fun s a => some (step s a)) s as = some (as.foldl step s) := by
  induction as generalizing s with
  | nil => rfl
  | cons a as ih => exact ih (step s a)

/-- A preorder that relates each state to its successors relates the two ends
of a run. The invariant may be used at every step. -/
theorem run_rel {step : σ → α → Option σ} {I : σ → Prop} {R : σ → σ → Prop}
    (hrefl : ∀ s, R s s) (htrans : ∀ s t u, R s t → R t u → R s u)
    (hinv : ∀ s a s', I s → step s a = some s' → I s')
    (hstep : ∀ s a s', I s → step s a = some s' → R s s') :
    ∀ (as : List α) (s s' : σ), I s → run step s as = some s' → R s s'
  | [], s, s', _, h => by
      rw [run_nil, Option.some.injEq] at h
      exact h ▸ hrefl s
  | a :: as, s, s', hs, h => by
      obtain ⟨t, ht, hrun⟩ := (run_cons_eq_some_iff step s s' a as).mp h
      exact htrans s t s' (hstep s a t hs ht)
        (run_rel hrefl htrans hinv hstep as t s' (hinv s a t hs ht) hrun)

/-- A run of a system is one of another system that takes the same steps. -/
theorem run_embed {τ β : Type*} {step : σ → α → Option σ} (step' : τ → β → Option τ)
    (f : σ → τ) (g : α → β)
    (hstep : ∀ s a s', step s a = some s' → step' (f s) (g a) = some (f s')) :
    ∀ (as : List α) (s s' : σ), run step s as = some s' →
      run step' (f s) (as.map g) = some (f s')
  | [], s, s', h => by
      rw [run_nil, Option.some.injEq] at h
      rw [List.map_nil, run_nil, h]
  | a :: as, s, s', h => by
      obtain ⟨t, ht, hrun⟩ := (run_cons_eq_some_iff step s s' a as).mp h
      rw [List.map_cons, run_cons, hstep s a t ht]
      exact run_embed step' f g hstep as t s' hrun

/-- What does not hold at the start of a run and holds at its end was brought about by one of
its steps. -/
theorem exists_step_of_run {step : σ → α → Option σ} {P : σ → Prop} {s s' : σ} {as : List α}
    (h : run step s as = some s') (hs : ¬ P s) (hs' : P s') :
    ∃ as₁ a as₂ t t', as = as₁ ++ a :: as₂ ∧ run step s as₁ = some t ∧ ¬ P t ∧
      step t a = some t' ∧ P t' ∧ run step t' as₂ = some s' := by
  induction as generalizing s with
  | nil =>
      rw [run_nil, Option.some.injEq] at h
      exact absurd (h ▸ hs') hs
  | cons a as ih =>
      obtain ⟨t, ht, hrun⟩ := (run_cons_eq_some_iff step s s' a as).mp h
      by_cases hP : P t
      · exact ⟨[], a, as, s, t, rfl, rfl, hs, ht, hP, hrun⟩
      · obtain ⟨as₁, b, as₂, u, u', rfl, hrun₁, hu, hstep, hu', hrun₂⟩ := ih hrun hP
        exact ⟨a :: as₁, b, as₂, u, u', rfl,
          (run_cons_eq_some_iff step s u a as₁).mpr ⟨t, ht, hrun₁⟩, hu, hstep, hu', hrun₂⟩

end Transition
