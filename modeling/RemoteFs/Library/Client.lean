import RemoteFs.Library.Transition

/-!
# A client beside a system

A system takes steps, and a client with a phase of its own acts on it in between. A client that
conforms does nothing to the system that the system could not do by itself, so what holds of
every state the system reaches holds also with the client beside it (`run_system`). What a
client has come to, it came to by one of its own events (`exists_event`).
-/

namespace Client

variable {σ α φ ε : Type*}

/-- A step of the system, or an event of the client. -/
inductive Move (α ε : Type*) where
  | system (a : α)
  | client (e : ε)

def step (system : σ → α → Option σ) (client : σ → φ → ε → Option (σ × φ)) (s : σ × φ) :
    Move α ε → Option (σ × φ)
  | .system a => (system s.1 a).map fun t => (t, s.2)
  | .client e => client s.1 s.2 e

/-- The client does to the system only what the system can do. -/
def Conforms (system : σ → α → Option σ) (client : σ → φ → ε → Option (σ × φ)) : Prop :=
  ∀ s p e s' p', client s p e = some (s', p') → ∃ as, Transition.run system s as = some s'

variable {system : σ → α → Option σ} {client : σ → φ → ε → Option (σ × φ)}

theorem run_system (hconforms : Conforms system client) {s s' : σ × φ}
    {moves : List (Move α ε)} (h : Transition.run (step system client) s moves = some s') :
    ∃ as, Transition.run system s.1 as = some s'.1 := by
  induction moves generalizing s with
  | nil =>
      cases h
      exact ⟨[], rfl⟩
  | cons move moves ih =>
      obtain ⟨t, ht, hrun⟩ := (Transition.run_cons_eq_some_iff _ _ _ _ _).mp h
      obtain ⟨as, has⟩ := ih hrun
      have hfirst : ∃ bs, Transition.run system s.1 bs = some t.1 := by
        cases move with
        | system a =>
            obtain ⟨u, hu, rfl⟩ := Option.map_eq_some_iff.mp ht
            exact ⟨[a], (Transition.run_cons_eq_some_iff _ _ _ _ _).mpr ⟨u, hu, rfl⟩⟩
        | client e => exact hconforms s.1 s.2 e t.1 t.2 ht
      obtain ⟨bs, hbs⟩ := hfirst
      exact ⟨bs ++ as, (Transition.run_append _ _ _ _ _ hbs).trans has⟩

/-- A client that has come to something has come to it by an event of its own. -/
theorem exists_event {P : φ → Prop} {s s' : σ × φ} {moves : List (Move α ε)}
    (h : Transition.run (step system client) s moves = some s') (hs : ¬ P s.2)
    (hs' : P s'.2) :
    ∃ before e after t t', moves = before ++ .client e :: after ∧
      Transition.run (step system client) s before = some t ∧ ¬ P t.2 ∧
      client t.1 t.2 e = some t' ∧ P t'.2 ∧
      Transition.run (step system client) t' after = some s' := by
  obtain ⟨before, move, after, t, t', hmoves, hbefore, ht, hstep, ht', hafter⟩ :=
    Transition.exists_step_of_run (P := fun s : σ × φ => P s.2) h hs hs'
  cases move with
  | system a =>
      obtain ⟨u, -, rfl⟩ := Option.map_eq_some_iff.mp hstep
      exact absurd ht' ht
  | client e => exact ⟨before, e, after, t, t', hmoves, hbefore, ht, hstep, ht', hafter⟩

/-- What the system and the events of the client keep holds at the end of a run. -/
theorem run_invariant {I : σ × φ → Prop}
    (hsystem : ∀ s p a s', I (s, p) → system s a = some s' → I (s', p))
    (hclient : ∀ s p e s' p', I (s, p) → client s p e = some (s', p') → I (s', p'))
    {moves : List (Move α ε)} {s s' : σ × φ} (hs : I s)
    (h : Transition.run (step system client) s moves = some s') : I s' := by
  refine Transition.run_invariant (I := I) (fun t move t' ht hstep => ?_) moves s s' hs h
  cases move with
  | system a =>
      obtain ⟨u, hu, rfl⟩ := Option.map_eq_some_iff.mp hstep
      exact hsystem t.1 t.2 a u ht hu
  | client e => exact hclient t.1 t.2 e t'.1 t'.2 ht hstep

end Client
