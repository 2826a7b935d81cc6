import RemoteFs.Session.SingleFlight

/-!
# Every call of the cache can come to its end

A gate that is held is held by a call (`Gated`), and a call that holds a gate waits for nothing.
So a call that waits for a gate enters it once the holder has finished, and from there on each
of its steps brings it closer to its end.
-/

namespace RemoteFs

namespace Session

namespace Cache

/-! ### Holders of gates -/

/-- A gate that is held is held by a call. -/
def Gated (state : State) : Prop :=
  ∀ (lock : ℕ) l j, state.shared.heap[lock]? = some l → l.gate = some j →
    ∃ call, state.threads[j]? = some call ∧ call.phase.holding = some lock

section Gated

variable {i : ℕ} {state : State} {shared' : Shared} {call call' : Call}

theorem holder_after (hcall : state.threads[i]? = some call) {lock j : ℕ}
    (hkeeps : call.phase.holding = some lock → call'.phase.holding = some lock)
    (h : ∃ c, state.threads[j]? = some c ∧ c.phase.holding = some lock) :
    ∃ c, (state.threads.set i call')[j]? = some c ∧ c.phase.holding = some lock := by
  obtain ⟨c, hc, hheld⟩ := h
  by_cases hij : i = j
  · subst hij
    rw [hcall, Option.some.injEq] at hc
    subst hc
    exact ⟨call', Pool.getElem?_set_same hcall call', hkeeps hheld⟩
  · exact ⟨c, by rw [List.getElem?_set_ne hij, hc], hheld⟩

theorem Gated.act (h : Gated state) (hlocks : Coordinated state)
    (hcall : state.threads[i]? = some call)
    (hstep : Coordinates i state.shared call shared' call') :
    Gated { shared := shared', threads := state.threads.set i call' } := by
  intro lock l j hl hgate
  dsimp only at hl
  cases hstep with
  | stay hmap hpoisoned hheap hjoined hholding =>
      rw [hheap] at hl
      exact holder_after hcall (fun hheld => hholding.trans hheld) (h lock l j hl hgate)
  | join other hacquire hbefore hjoined hfree hholding =>
      have hkeeps : call.phase.holding = some lock → call'.phase.holding = some lock :=
        fun hheld => by rw [hfree] at hheld; cases hheld
      obtain ⟨-, rfl⟩ | ⟨-, -, rfl⟩ := acquire_cases hacquire
      · dsimp only at hl
        rw [List.getElem?_modify] at hl
        obtain ⟨l₀, hl₀, hmodified⟩ := Option.map_eq_some_iff.mp hl
        refine holder_after hcall hkeeps (h lock l₀ j hl₀ ?_)
        rw [← hgate, ← hmodified]
        split <;> rfl
      · obtain hold | rfl := Pool.getElem?_append_cases hl
        · exact holder_after hcall hkeeps (h lock l j hold hgate)
        · cases hgate
  | enter entered l₀ hlock hfreed hshared hbefore hjoined hfree hholding =>
      rw [hshared] at hl
      obtain ⟨rfl, rfl⟩ | ⟨-, hold⟩ := Pool.getElem?_set_cases hl
      · cases hgate
        exact ⟨call', Pool.getElem?_set_same hcall call', hholding⟩
      · refine holder_after hcall (fun hheld => ?_) (h lock l j hold hgate)
        rw [hfree] at hheld
        cases hheld
  | drop dropped panicking hshared hbefore hjoined hholding =>
      obtain ⟨l₀, hl₀, -⟩ := hlocks.holder i call dropped hcall hbefore
      rw [hshared, Shared.dropGuard, Pool.modify_eq_set hl₀] at hl
      obtain ⟨rfl, rfl⟩ | ⟨hne, hold⟩ := Pool.getElem?_set_cases hl
      · cases hgate
      · refine holder_after hcall (fun hheld => ?_) (h lock l j hold hgate)
        rw [hbefore, Option.some.injEq] at hheld
        exact absurd hheld.symm hne
  | leave left hrelease hbefore hjoined hholding =>
      obtain ⟨l₀, hl₀, -, rfl⟩ := release_cases hrelease
      refine holder_after hcall (fun hheld => hholding.trans hheld) ?_
      obtain ⟨rfl, rfl⟩ | ⟨-, hold⟩ := Pool.getElem?_set_cases hl
      · exact h _ l₀ j hl₀ hgate
      · exact h lock l j hold hgate
  | poisoned hpoisoned =>
      rw [hlocks.unpoisoned] at hpoisoned
      cases hpoisoned
  | underflow left hbefore hnone =>
      obtain ⟨l₀, hlock, hpositive, -⟩ :=
        hlocks.entry call.digest left (hlocks.joined i call left hcall hbefore)
      have hne : l₀.participants ≠ 0 := by omega
      simp [Shared.releaseDownloadLock, hlocks.unpoisoned, hlock, hne] at hnone

theorem gated_start (files : PathBuf → Option Bytes) : Gated (start files) := by
  intro lock l j hl
  simp [start, Shared.opened] at hl

theorem Gated.begin (h : Gated state) (arguments : Digest × Request) :
    Gated { state with threads := state.threads ++ [Call.begin arguments] } := by
  intro lock l j hl hgate
  obtain ⟨call, hcall, hheld⟩ := h lock l j hl hgate
  refine ⟨call, ?_, hheld⟩
  dsimp only
  rw [List.getElem?_append_left (List.getElem?_eq_some_iff.mp hcall).1, hcall]

theorem Gated.step [Sha256] {root : PathBuf} {state' : State} {move : Move}
    (h : Gated state) (hlocks : Coordinated state) (hstep : step root state move = some state') :
    Gated state' := by
  obtain ⟨arguments, -, rfl⟩ | ⟨i, action, call, shared', call', -, hcall, hact, rfl⟩ :=
    Pool.step_cases hstep
  · exact h.begin arguments
  · exact h.act hlocks hcall (advance_advances hact).coordinates

end Gated

/-! ### Steps to the end -/

/-- The most steps a call still needs, apart from the writes of a stream. -/
def Phase.remaining : Phase → ℕ
  | .checking => 8
  | .acquiring => 7
  | .waiting _ => 6
  | .rechecking _ => 5
  | .starting _ => 4
  | .streaming _ _ => 4
  | .admitting _ _ => 4
  | .unlocking _ _ => 3
  | .releasing _ _ => 2
  | .refused _ => 2
  | .departing _ _ => 1
  | .reading _ => 1
  | .panicked _ => 0
  | .returned _ => 0

/-- A call that has returned or panicked. -/
def Phase.over (phase : Phase) : Prop :=
  phase.remaining = 0

theorem remaining_of_holding {phase : Phase} {lock : ℕ} (h : phase.holding = some lock) :
    phase.remaining ≤ 5 := by
  cases phase <;> first | (cases h; done) | simp [Phase.remaining]

theorem not_over_of_holding {phase : Phase} {lock : ℕ} (h : phase.holding = some lock) :
    ¬ phase.over := by
  cases phase <;> first | (cases h; done) | simp [Phase.over, Phase.remaining]

theorem remaining_ensure (call : Call) (result : Except SessionError Bool) :
    (call.ensure result).phase.remaining ≤ 1 := by
  cases result with
  | ok downloaded => exact le_refl 1
  | error e => exact Nat.zero_le 1

/-- One call takes steps, each named by the call and its action. -/
def stepCall [Sha256] (root : PathBuf) (state : State) (move : ℕ × Action) : Option State :=
  step root state (.act move.1 move.2)

section Progress

variable [Sha256] {root : PathBuf} {state : State} {i : ℕ} {call : Call}

/-- A call that waits for no gate has a step towards its end. -/
theorem exists_advance (root : PathBuf) (index : ℕ) (shared : Shared) (call : Call)
    (hlow : call.phase.remaining ≤ 5) (hgoes : ¬ call.phase.over) :
    ∃ action shared' call', advance root index action shared call = some (shared', call') ∧
      call'.phase.remaining < call.phase.remaining := by
  obtain ⟨digest, request, phase, ensured, admitted⟩ := call
  cases phase with
  | checking | acquiring | waiting => simp [Phase.remaining] at hlow
  | panicked | returned => exact absurd rfl hgoes
  | rechecking lock =>
      refine ⟨.recheck, shared, _, rfl, ?_⟩
      split <;> simp [Call.goto, Phase.remaining]
  | starting lock =>
      exact ⟨.startPendingBlob (some (.create "")), shared, _, rfl,
        by simp [Call.goto, Phase.remaining]⟩
  | streaming lock pending =>
      exact ⟨.finishStream (some ""), shared, _, rfl, by simp [Call.goto, Phase.remaining]⟩
  | admitting lock pending =>
      refine ⟨.admitPendingBlob none, _, _, rfl, ?_⟩
      split <;> simp [Call.goto, Phase.remaining]
  | unlocking lock result => exact ⟨.unlock, _, _, rfl, by simp [Call.goto, Phase.remaining]⟩
  | releasing lock result =>
      refine ⟨.release, _, _, rfl, ?_⟩
      split
      · simp [Call.goto, Phase.remaining]
      · exact Nat.lt_succ_of_le (remaining_ensure _ _)
      · exact Nat.lt_succ_of_le (remaining_ensure _ _)
  | refused lock =>
      refine ⟨.release, _, _, rfl, ?_⟩
      split <;> simp [Call.goto, Phase.remaining]
  | departing lock e => exact ⟨.depart, _, _, rfl, Nat.zero_lt_one⟩
  | reading downloaded => exact ⟨.read ⟨none, none, .ok id⟩, _, _, rfl, Nat.zero_lt_one⟩

/-- A call can come to its end. -/
def CanFinish (root : PathBuf) (state : State) (i : ℕ) : Prop :=
  ∃ moves state' call', Transition.run (stepCall root) state moves = some state' ∧
    state'.threads[i]? = some call' ∧ call'.phase.over

/-- A call can come to its end by steps that leave the other calls as they are. -/
def Finishes (root : PathBuf) (state : State) (i : ℕ) : Prop :=
  ∃ moves state' call', Transition.run (stepCall root) state moves = some state' ∧
    state'.threads[i]? = some call' ∧ call'.phase.over ∧
    ∀ j, j ≠ i → state'.threads[j]? = state.threads[j]?

theorem Finishes.canFinish (h : Finishes root state i) : CanFinish root state i := by
  obtain ⟨moves, state', call', hrun, hcall', hover, -⟩ := h
  exact ⟨moves, state', call', hrun, hcall', hover⟩

theorem CanFinish.cons {state' : State} {move : ℕ × Action}
    (hstep : stepCall root state move = some state') (h : CanFinish root state' i) :
    CanFinish root state i := by
  obtain ⟨moves, last, call', hrun, hcall', hover⟩ := h
  exact ⟨move :: moves, last, call',
    (Transition.run_cons_eq_some_iff _ _ _ _ _).mpr ⟨state', hstep, hrun⟩, hcall', hover⟩

theorem Finishes.cons {state' : State} {action : Action}
    (hstep : stepCall root state (i, action) = some state')
    (hothers : ∀ j, j ≠ i → state'.threads[j]? = state.threads[j]?)
    (h : Finishes root state' i) : Finishes root state i := by
  obtain ⟨moves, last, call', hrun, hcall', hover, hsame⟩ := h
  refine ⟨(i, action) :: moves, last, call',
    (Transition.run_cons_eq_some_iff _ _ _ _ _).mpr ⟨state', hstep, hrun⟩, hcall', hover, ?_⟩
  exact fun j hj => (hsame j hj).trans (hothers j hj)

omit [Sha256] in
theorem stepCall_eq [Sha256] (hcall : state.threads[i]? = some call) {action : Action}
    {shared' : Shared} {call' : Call}
    (hadvance : advance root i action state.shared call = some (shared', call')) :
    stepCall root state (i, action) =
      some { shared := shared', threads := state.threads.set i call' } := by
  rw [stepCall, step, Pool.step, hcall, Option.bind_some, hadvance]
  rfl

theorem finishes_of_low (hcall : state.threads[i]? = some call)
    (hlow : call.phase.remaining ≤ 5) : Finishes root state i := by
  induction hn : call.phase.remaining using Nat.strong_induction_on generalizing state call with
  | h n ih =>
      by_cases hover : call.phase.over
      · exact ⟨[], state, call, rfl, hcall, hover, fun j _ => rfl⟩
      · obtain ⟨action, shared', call', hadvance, hless⟩ :=
          exists_advance root i state.shared call hlow hover
        refine .cons (stepCall_eq hcall hadvance)
          (fun j hj => List.getElem?_set_ne (Ne.symm hj)) ?_
        exact ih _ (hn ▸ hless) (Pool.getElem?_set_same hcall call') (by omega) rfl

theorem finishes_of_free (hlocks : Coordinated state) {lock : ℕ}
    (hcall : state.threads[i]? = some call) (hwaiting : call.phase = .waiting lock)
    (hfree : ∀ l, state.shared.heap[lock]? = some l → l.gate = none) :
    Finishes root state i := by
  obtain ⟨l, hl, -⟩ := hlocks.entry call.digest lock
    (hlocks.joined i call lock hcall (by rw [hwaiting]; rfl))
  have hadvance : advance root i .enterGate state.shared call =
      some ({ state.shared with
          heap := state.shared.heap.set lock { l with gate := some i } },
        call.goto (if l.poisoned then .refused lock else .rechecking lock)) := by
    unfold advance
    rw [hwaiting]
    dsimp only
    rw [enterGate, hl, Option.bind_some, if_pos (hfree l hl)]
  refine .cons (stepCall_eq hcall hadvance)
    (fun j hj => List.getElem?_set_ne (Ne.symm hj)) ?_
  refine finishes_of_low (Pool.getElem?_set_same hcall _) ?_
  rw [Call.goto]
  dsimp only
  split <;> simp [Phase.remaining]

theorem coordinated_of_run {moves : List (ℕ × Action)} {state' : State}
    (h : Coordinated state ∧ Gated state)
    (hrun : Transition.run (stepCall root) state moves = some state') :
    Coordinated state' ∧ Gated state' :=
  Transition.run_invariant (I := fun s => Coordinated s ∧ Gated s) (fun _ _ _ hinv hstep =>
    ⟨hinv.1.step hstep, hinv.2.step hinv.1 hstep⟩) moves state state' h hrun

/-- A call that waits for a gate enters it once the holder has finished. -/
theorem canFinish_of_waiting (hlocks : Coordinated state) (hgated : Gated state)
    {lock : ℕ} (hcall : state.threads[i]? = some call) (hwaiting : call.phase = .waiting lock) :
    CanFinish root state i := by
  by_cases hfree : ∀ l, state.shared.heap[lock]? = some l → l.gate = none
  · exact (finishes_of_free hlocks hcall hwaiting hfree).canFinish
  · obtain ⟨l, hnot⟩ := not_forall.mp hfree
    obtain ⟨hl, hheld⟩ := Classical.not_imp.mp hnot
    obtain ⟨j, hgate⟩ := Option.ne_none_iff_exists'.mp hheld
    obtain ⟨holder, hholder, hholding⟩ := hgated lock l j hl hgate
    have hne : i ≠ j := by
      rintro rfl
      rw [hcall, Option.some.injEq] at hholder
      rw [← hholder, hwaiting] at hholding
      cases hholding
    have hfinishes : Finishes root state j :=
      finishes_of_low hholder (remaining_of_holding hholding)
    obtain ⟨moves, between, holder', hrun, hholder', hover, hsame⟩ := hfinishes
    obtain ⟨hlocks', hgated'⟩ := coordinated_of_run ⟨hlocks, hgated⟩ hrun
    have hcall' : between.threads[i]? = some call := (hsame i hne).trans hcall
    have hfree' : ∀ l, between.shared.heap[lock]? = some l → l.gate = none := by
      intro l' hl'
      by_contra hsome
      obtain ⟨k, hk⟩ := Option.ne_none_iff_exists'.mp hsome
      obtain ⟨other, hother, hkept⟩ := hgated' lock l' k hl' hk
      by_cases hkj : k = j
      · rw [hkj, hholder', Option.some.injEq] at hother
        rw [← hother] at hkept
        exact not_over_of_holding hkept hover
      · rw [hsame k hkj] at hother
        obtain ⟨m, hm, hmgate⟩ := hlocks.holder k other lock hother hkept
        rw [hl, Option.some.injEq] at hm
        rw [← hm, hgate, Option.some.injEq] at hmgate
        exact hkj hmgate.symm
    have henters : Finishes root between i := finishes_of_free hlocks' hcall' hwaiting hfree'
    obtain ⟨more, state', call', hmore, hlast, hdone⟩ := henters.canFinish
    exact ⟨moves ++ more, state', call',
      (Transition.run_append _ _ _ _ _ hrun).trans hmore, hlast, hdone⟩

theorem canFinish_of_acquiring (hlocks : Coordinated state) (hgated : Gated state)
    (hcall : state.threads[i]? = some call) (hacquiring : call.phase = .acquiring) :
    CanFinish root state i := by
  have hadvance : ∃ shared' call', advance root i .acquire state.shared call =
      some (shared', call') ∧
        (call'.phase.remaining ≤ 5 ∨ ∃ lock, call'.phase = .waiting lock) := by
    unfold advance
    rw [hacquiring]
    dsimp only
    split
    · next e _ =>
        exact ⟨_, _, rfl, .inl ((remaining_ensure call (.error e)).trans (by decide))⟩
    · next lock shared' _ => exact ⟨_, _, rfl, .inr ⟨lock, rfl⟩⟩
  obtain ⟨shared', call', hadvance, hphase⟩ := hadvance
  have hstep := stepCall_eq hcall hadvance
  have hcall' := Pool.getElem?_set_same hcall call'
  refine .cons hstep ?_
  obtain hlow | ⟨lock, hwaiting⟩ := hphase
  · exact (finishes_of_low hcall' hlow).canFinish
  · exact canFinish_of_waiting (hlocks.step hstep) (hgated.step hlocks hstep) hcall' hwaiting

theorem canFinish_of_checking (hlocks : Coordinated state) (hgated : Gated state)
    (hcall : state.threads[i]? = some call) (hchecking : call.phase = .checking) :
    CanFinish root state i := by
  have hadvance : ∃ call', advance root i .check state.shared call =
      some (state.shared, call') ∧
        (call'.phase.remaining ≤ 5 ∨ call'.phase = .acquiring) := by
    unfold advance
    rw [hchecking]
    refine ⟨_, rfl, ?_⟩
    split
    · exact .inl ((remaining_ensure call (.ok false)).trans (by decide))
    · exact .inr rfl
  obtain ⟨call', hadvance, hphase⟩ := hadvance
  have hstep := stepCall_eq hcall hadvance
  have hcall' := Pool.getElem?_set_same hcall call'
  refine .cons hstep ?_
  obtain hlow | hacquiring := hphase
  · exact (finishes_of_low hcall' hlow).canFinish
  · exact canFinish_of_acquiring (hlocks.step hstep) (hgated.step hlocks hstep) hcall' hacquiring

/-- From every state of the cache every call can come to its end. -/
theorem canFinish (root : PathBuf) (hlocks : Coordinated state) (hgated : Gated state)
    (hcall : state.threads[i]? = some call) : CanFinish root state i := by
  by_cases hlow : call.phase.remaining ≤ 5
  · exact (finishes_of_low hcall hlow).canFinish
  · cases hphase : call.phase with
    | checking => exact canFinish_of_checking hlocks hgated hcall hphase
    | acquiring => exact canFinish_of_acquiring hlocks hgated hcall hphase
    | waiting lock => exact canFinish_of_waiting hlocks hgated hcall hphase
    | _ => simp [hphase, Phase.remaining] at hlow

end Progress

end Cache

end Session

end RemoteFs
