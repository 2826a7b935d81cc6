import RemoteFs.Cas.Config

/-!
# The retry loop of an RPC

The loop counts its attempts; the counter limits them, indexes the table of pauses and is
reported with the error. `RetryRun` also has what the loop does on the way: each call of the
operation and each pause.
-/

namespace RemoteFs

namespace Cas

abbrev Duration := ℕ

namespace Duration

def fromMillis (n : ℕ) : Duration := n * 1000000

def fromSecs (n : ℕ) : Duration := n * 1000000000

end Duration

def defaultRetryInitialBackoff : Duration := .fromMillis 100

def retryBackoffs : List Duration :=
  [defaultRetryInitialBackoff, .fromMillis 250, .fromMillis 500, .fromSecs 1]

theorem retryBackoffs_length : retryBackoffs.length = maxRetryAttempts - 1 := rfl

def retryBackoff (attempt : ℕ) : Duration :=
  (retryBackoffs[attempt - 1]?).getD (retryBackoffs.getLast (by decide))

/-- What the loop does: call the operation, or sleep. -/
inductive RetryEvent where
  | call
  | sleep (duration : Duration)
  deriving DecidableEq, Repr

structure RetryRun (α : Type) where
  result : Except CasError α
  events : List RetryEvent

section Loop

variable {α : Type} (config : CasConfig) (operation : CasOperation)
  (op : ℕ → Except AttemptFailure α)

def rpcError (attempt : ℕ) (status : Status) : CasError :=
  .rpc operation attempt config.casUrl config.instanceName status

/-- The loop at a given attempt, after `calls` calls of the operation. -/
def retryRpcFrom (attempt calls : ℕ) : RetryRun α :=
  match op calls with
  | .ok response => ⟨.ok response, [.call]⟩
  | .error (.status status) =>
      if attempt < config.maxAttempts ∧ isRetryableStatus status = true then
        let rest := retryRpcFrom (attempt + 1) (calls + 1)
        ⟨rest.result, .call :: .sleep (retryBackoff attempt) :: rest.events⟩
      else ⟨.error (rpcError config operation attempt status), [.call]⟩
  | .error .elapsed =>
      if attempt < config.maxAttempts then
        let rest := retryRpcFrom (attempt + 1) (calls + 1)
        ⟨rest.result, .call :: .sleep (retryBackoff attempt) :: rest.events⟩
      else
        ⟨.error (rpcError config operation attempt
          ⟨.deadlineExceeded, "operation attempt timed out"⟩), [.call]⟩
termination_by config.maxAttempts - attempt

def retryRpcRun : RetryRun α := retryRpcFrom config operation op 1 0

/-- What the loop returns when the call of an attempt is the last one. -/
def lastResult (attempt : ℕ) (outcome : Except AttemptFailure α) : Except CasError α :=
  outcome.mapError fun failure => rpcError config operation attempt failure.reported

variable {config operation op}

theorem retryRpcFrom_of_transient {attempt calls : ℕ} (hlimit : attempt < config.maxAttempts)
    (h : Retry.Transient AttemptFailure.retryable (op calls)) :
    retryRpcFrom config operation op attempt calls =
      ⟨(retryRpcFrom config operation op (attempt + 1) (calls + 1)).result,
        .call :: .sleep (retryBackoff attempt) ::
          (retryRpcFrom config operation op (attempt + 1) (calls + 1)).events⟩ := by
  obtain ⟨failure, hop, hretry⟩ := h
  rw [retryRpcFrom, hop]
  cases failure with
  | status status => exact if_pos ⟨hlimit, hretry⟩
  | elapsed => exact if_pos hlimit

theorem retryRpcFrom_of_last {attempt calls : ℕ}
    (h : config.maxAttempts ≤ attempt ∨
      ¬ Retry.Transient AttemptFailure.retryable (op calls)) :
    retryRpcFrom config operation op attempt calls =
      ⟨lastResult config operation attempt (op calls), [.call]⟩ := by
  rw [retryRpcFrom]
  cases hop : op calls with
  | ok response => rfl
  | error failure =>
      have hstop : ¬ (attempt < config.maxAttempts ∧ failure.retryable = true) := by
        rintro ⟨hlimit, hretry⟩
        rcases h with hle | hlast
        · omega
        · exact hlast ⟨failure, hop, hretry⟩
      cases failure with
      | status status => exact if_neg hstop
      | elapsed => exact if_neg fun hlimit => hstop ⟨hlimit, rfl⟩

variable (config operation op) in
/-- The loop makes transient attempts, sleeps after each of them, and returns the result of
the attempt after them. -/
theorem retryRpcFrom_stops (attempt calls : ℕ) (hattempt : attempt ≤ config.maxAttempts) :
    ∃ k, attempt + k ≤ config.maxAttempts ∧
      (∀ i < k, Retry.Transient AttemptFailure.retryable (op (calls + i))) ∧
      (attempt + k = config.maxAttempts ∨
        ¬ Retry.Transient AttemptFailure.retryable (op (calls + k))) ∧
      retryRpcFrom config operation op attempt calls =
        ⟨lastResult config operation (attempt + k) (op (calls + k)),
          ((List.range' attempt k).flatMap fun i => [.call, .sleep (retryBackoff i)]) ++
            [.call]⟩ := by
  induction hleft : config.maxAttempts - attempt generalizing attempt calls with
  | zero =>
      have hend : attempt = config.maxAttempts := by omega
      exact ⟨0, by omega, fun i hi => absurd hi (by omega), .inl hend,
        retryRpcFrom_of_last (.inl hend.ge)⟩
  | succ left ih =>
      by_cases htransient : Retry.Transient AttemptFailure.retryable (op calls)
      · obtain ⟨k, hle, hpassed, hstop, hrun⟩ := ih (attempt + 1) (calls + 1) (by omega) (by omega)
        have hcalls : calls + 1 + k = calls + (k + 1) := by omega
        have hattempts : attempt + 1 + k = attempt + (k + 1) := by omega
        rw [hattempts] at hle
        rw [hattempts, hcalls] at hstop hrun
        refine ⟨k + 1, hle, ?_, hstop, ?_⟩
        · intro i hi
          cases i with
          | zero => exact htransient
          | succ i =>
              rw [show calls + (i + 1) = calls + 1 + i by omega]
              exact hpassed i (by omega)
        · rw [retryRpcFrom_of_transient (by omega) htransient, hrun]
          rfl
      · exact ⟨0, by omega, fun i hi => absurd hi (by omega), .inr htransient,
          retryRpcFrom_of_last (.inr htransient)⟩

/-- The result is that of the loop over the outcomes of the attempts. -/
theorem retryRpcRun_result (hpos : 1 ≤ config.maxAttempts) :
    (retryRpcRun config operation op).result =
      retryRpc config operation fun attempt => op (attempt - 1) := by
  obtain ⟨k, hle, hpassed, hstop, hrun⟩ :=
    retryRpcFrom_stops config operation op 1 0 hpos
  rw [Nat.zero_add] at hstop
  have hshift : ∀ i, op (1 + i - 1) = op i := by
    intro i
    rw [Nat.add_sub_cancel_left]
  have hloop : Retry.loop AttemptFailure.retryable config.maxAttempts
      (fun attempt => op (attempt - 1)) 1 = (op k).mapError fun e => (1 + k, e) := by
    rw [Retry.loop_add k hle (by simpa [hshift] using hpassed), Retry.loop_of_last, hshift]
    simpa only [hshift] using hstop.imp_left Eq.ge
  rw [retryRpcRun, hrun, retryRpc, hloop, Nat.zero_add]
  cases op k with
  | ok response => rfl
  | error failure => rfl

end Loop

theorem validateRetryAttempts_eq_ok_iff (maxAttempts : ℕ) :
    validateRetryAttempts maxAttempts = .ok () ↔
      1 ≤ maxAttempts ∧ maxAttempts ≤ maxRetryAttempts := by
  unfold validateRetryAttempts
  split
  · next hzero => simp [hzero]
  · next hpos =>
      split
      · next hlarge => simp [Nat.not_le.mpr hlarge]
      · next hle =>
          simp only [true_iff]
          omega

theorem map_retryBackoff {k : ℕ} (h : k ≤ retryBackoffs.length) :
    (List.range' 1 k).map retryBackoff = retryBackoffs.take k := by
  have hall : ∀ k ≤ retryBackoffs.length,
      (List.range' 1 k).map retryBackoff = retryBackoffs.take k := by
    decide
  exact hall k h

/-- What `n` calls of the operation, the last one with `outcome`, amount to. -/
structure RetriedCalls {α : Type} (config : CasConfig) (operation : CasOperation) (n : ℕ)
    (outcome : Except AttemptFailure α) (run : RetryRun α) : Prop where
  calls : run.events.count .call = n
  events : run.events =
    ((retryBackoffs.take (n - 1)).flatMap fun pause => [.call, .sleep pause]) ++ [.call]
  inTable : n - 1 ≤ retryBackoffs.length
  ok_iff : ∀ response, run.result = .ok response ↔ outcome = .ok response
  error : ∀ failure, outcome = .error failure →
    run.result = .error
      (.rpc operation n config.casUrl config.instanceName failure.reported)

theorem count_call (pauses : List Duration) :
    ((pauses.flatMap fun pause => [RetryEvent.call, RetryEvent.sleep pause]) ++
      [RetryEvent.call]).count RetryEvent.call = pauses.length + 1 := by
  induction pauses with
  | nil => rfl
  | cons pause pauses ih =>
      rw [List.flatMap_cons, List.append_assoc, List.count_append, ih, List.length_cons]
      simp only [List.count_cons, List.count_nil]
      simp
      omega

/-- The operation is called as often as the limit and the initial transient outcomes say;
the result is that of the last call, and the pauses are the entries of the table. -/
theorem retry_rpc_calls {α : Type} (config : CasConfig) (operation : CasOperation)
    (op : ℕ → Except AttemptFailure α)
    (hvalid : validateRetryAttempts config.maxAttempts = .ok ()) :
    ∃ n : ℕ, 1 ≤ n ∧
      (n : ℕ∞) = min (config.maxAttempts : ℕ∞)
        (1 + Retry.initialRun AttemptFailure.retryable op) ∧
      RetriedCalls config operation n (op (n - 1)) (retryRpcRun config operation op) := by
  obtain ⟨hpos, hmax⟩ := (validateRetryAttempts_eq_ok_iff _).mp hvalid
  obtain ⟨k, hle, hpassed, hstop, hrun⟩ :=
    retryRpcFrom_stops config operation op 1 0 hpos
  have htable : k ≤ retryBackoffs.length := by
    rw [retryBackoffs_length]
    omega
  have hevents : (retryRpcRun config operation op).events =
      ((retryBackoffs.take k).flatMap fun pause => [.call, .sleep pause]) ++ [.call] := by
    rw [retryRpcRun, hrun, ← map_retryBackoff htable, List.flatMap_map]
  have hresult : (retryRpcRun config operation op).result =
      lastResult config operation (k + 1) (op k) := by
    rw [retryRpcRun, hrun, Nat.zero_add, Nat.add_comm 1 k]
  simp only [Nat.zero_add, Nat.add_comm 1 k] at hle hpassed hstop
  refine ⟨k + 1, by omega, Retry.eq_min_of_stops hle hpassed hstop, ?_⟩
  rw [Nat.add_sub_cancel]
  refine ⟨?_, hevents, htable, ?_, ?_⟩
  · rw [hevents, count_call, List.length_take_of_le htable]
  · intro response
    rw [hresult, lastResult]
    cases op k <;> simp [Except.mapError]
  · intro failure hfailure
    rw [hresult, hfailure]
    rfl

namespace Sample

/-- One attempt that is not answered in time, then answers. -/
def lateOnce : ℕ → Except AttemptFailure String
  | 0 => .error .elapsed
  | _ => .ok "answer"

end Sample

/-- The theorem at a default configuration and an operation that is late once. -/
theorem retry_rpc_calls_lateOnce :
    ∃ n : ℕ, 1 ≤ n ∧
      (n : ℕ∞) = min ((CasConfig.defaults "grpc://localhost:9092" "main").maxAttempts : ℕ∞)
        (1 + Retry.initialRun AttemptFailure.retryable Sample.lateOnce) ∧
      RetriedCalls (CasConfig.defaults "grpc://localhost:9092" "main") .byteStreamRead n
        (Sample.lateOnce (n - 1))
        (retryRpcRun (CasConfig.defaults "grpc://localhost:9092" "main") .byteStreamRead
          Sample.lateOnce) :=
  retry_rpc_calls _ _ _ rfl

end Cas

end RemoteFs
