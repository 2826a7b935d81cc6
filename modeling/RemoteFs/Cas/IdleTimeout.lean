import Mathlib.Algebra.Order.BigOperators.Group.List
import RemoteFs.Cas.RetryLoop

/-!
# One timer for an attempt, one for each chunk

The retry loop sets one timer for a whole attempt, the read loop a new one for each chunk it
waits for. `bytestreamIdleTimeout` is the limit of both, so a write is aborted when its
delays add up to more than the limit, and a read when one of them is longer.
-/

namespace RemoteFs

namespace Cas

/-- A future that makes progress after each of its delays, then has its output. -/
structure Timed (α : Type) where
  delays : List Duration
  output : α

/-- What is left of a timer after some delays, unless it goes off before. -/
def remaining : Duration → List Duration → Option Duration
  | limit, [] => some limit
  | limit, delay :: delays => if limit < delay then none else remaining (limit - delay) delays

/-- `tokio::time::timeout`: the output of a future that is ready before the timer goes
off. -/
def Timed.timeout {α : Type} (limit : Duration) (future : Timed α) : Option α :=
  (remaining limit future.delays).map fun _ => future.output

structure CasTimeouts where
  findMissingTimeout : Duration
  batchReadTimeout : Duration
  batchUpdateTimeout : Duration
  bytestreamIdleTimeout : Duration

def findMissingTimeoutSeconds : ℕ := 10

def batchReadTimeoutSeconds : ℕ := 30

def batchUpdateTimeoutSeconds : ℕ := 30

def bytestreamIdleTimeoutSeconds : ℕ := 30

def CasTimeouts.defaults : CasTimeouts where
  findMissingTimeout := .fromSecs findMissingTimeoutSeconds
  batchReadTimeout := .fromSecs batchReadTimeoutSeconds
  batchUpdateTimeout := .fromSecs batchUpdateTimeoutSeconds
  bytestreamIdleTimeout := .fromSecs bytestreamIdleTimeoutSeconds

def CasOperation.timeout (operation : CasOperation) (timeouts : CasTimeouts) : Duration :=
  match operation with
  | .findMissingBlobs => timeouts.findMissingTimeout
  | .batchReadBlobs => timeouts.batchReadTimeout
  | .batchUpdateBlobs => timeouts.batchUpdateTimeout
  | .byteStreamRead => timeouts.bytestreamIdleTimeout
  | .byteStreamWrite => timeouts.bytestreamIdleTimeout
  | .connect => .fromSecs 30

section Attempts

variable {α : Type} (config : CasConfig) (timeouts : CasTimeouts) (operation : CasOperation)

/-- What the retry loop sees of an attempt: its answer, when it comes in time. -/
def attemptOutcome (attempt : Timed (Except Status α)) : Except AttemptFailure α :=
  match attempt.timeout (operation.timeout timeouts) with
  | some answer => answer.mapError .status
  | none => .error .elapsed

def retryRpcTimed (op : ℕ → Timed (Except Status α)) : RetryRun α :=
  retryRpcRun config operation fun calls => attemptOutcome timeouts operation (op calls)

/-- A stream of chunks, each after a delay, with the delay before its end. -/
structure TimedStream where
  chunks : List (Duration × Buffer)
  ending : Duration

def TimedStream.delays (stream : TimedStream) : List Duration :=
  stream.chunks.map Prod.fst ++ [stream.ending]

/-- What the read loop sees of a stream when it sets a timer for each chunk. -/
def readEvents (ending : Duration) : List (Duration × Buffer) → List ReadEvent
  | [] =>
      match (Timed.mk [ending] ()).timeout timeouts.bytestreamIdleTimeout with
      | some () => []
      | none => [.idle]
  | (delay, data) :: chunks =>
      match (Timed.mk [delay] data).timeout timeouts.bytestreamIdleTimeout with
      | some data => .chunk data :: readEvents ending chunks
      | none => [.idle]

end Attempts

theorem remaining_eq_none_iff (limit : Duration) (delays : List Duration) :
    remaining limit delays = none ↔ limit < delays.sum := by
  induction delays generalizing limit with
  | nil => simp [remaining]
  | cons delay delays ih =>
      rw [remaining, List.sum_cons]
      split
      · next hlt => simpa using lt_of_lt_of_le hlt (Nat.le_add_right _ _)
      · next hle =>
          rw [ih]
          exact Nat.sub_lt_iff_lt_add' (Nat.not_lt.mp hle)

theorem Timed.timeout_eq_none_iff {α : Type} (limit : Duration) (future : Timed α) :
    future.timeout limit = none ↔ limit < future.delays.sum := by
  rw [Timed.timeout, Option.map_eq_none_iff, remaining_eq_none_iff]

/-- An attempt is aborted exactly when its delays add up to more than the timeout. -/
theorem attemptOutcome_eq_elapsed_iff {α : Type} (timeouts : CasTimeouts)
    (operation : CasOperation) (attempt : Timed (Except Status α)) :
    attemptOutcome timeouts operation attempt = .error .elapsed ↔
      operation.timeout timeouts < attempt.delays.sum := by
  rw [← Timed.timeout_eq_none_iff, attemptOutcome]
  cases attempt.timeout (operation.timeout timeouts) with
  | none => simp
  | some answer => cases answer <;> simp [Except.mapError]

theorem idle_mem_readEvents_iff (timeouts : CasTimeouts) (ending : Duration)
    (chunks : List (Duration × Buffer)) :
    ReadEvent.idle ∈ readEvents timeouts ending chunks ↔
      ∃ delay ∈ TimedStream.delays ⟨chunks, ending⟩, timeouts.bytestreamIdleTimeout < delay := by
  have hsingle : ∀ {β : Type} (delay : Duration) (data : β),
      (Timed.mk [delay] data).timeout timeouts.bytestreamIdleTimeout = none ↔
        timeouts.bytestreamIdleTimeout < delay := by
    intro β delay data
    rw [Timed.timeout_eq_none_iff, List.sum_singleton]
  induction chunks with
  | nil =>
      rw [readEvents, TimedStream.delays, List.map_nil, List.nil_append]
      simp only [List.mem_singleton, exists_eq_left]
      rw [← hsingle ending ()]
      cases (Timed.mk [ending] ()).timeout timeouts.bytestreamIdleTimeout <;> simp
  | cons chunk chunks ih =>
      obtain ⟨delay, data⟩ := chunk
      have hdelays : TimedStream.delays ⟨(delay, data) :: chunks, ending⟩ =
          delay :: TimedStream.delays ⟨chunks, ending⟩ := rfl
      rw [readEvents, hdelays, List.exists_mem_cons_iff, ← hsingle delay data]
      cases (Timed.mk [delay] data).timeout timeouts.bytestreamIdleTimeout with
      | none => simp
      | some data => simpa using ih

/-- A write is aborted exactly when it is idle for too long, if and only if its delays add up
to the timeout at most or one of them exceeds it. A read always is. -/
theorem write_aborted_when_idle_iff (timeouts : CasTimeouts) :
    (∀ {α : Type} (attempt : Timed (Except Status α)),
      ((attemptOutcome timeouts .byteStreamWrite attempt = .error .elapsed ↔
          ∃ delay ∈ attempt.delays, timeouts.bytestreamIdleTimeout < delay) ↔
        attempt.delays.sum ≤ timeouts.bytestreamIdleTimeout ∨
          ∃ delay ∈ attempt.delays, timeouts.bytestreamIdleTimeout < delay)) ∧
    ∀ stream : TimedStream,
      ReadEvent.idle ∈ readEvents timeouts stream.ending stream.chunks ↔
        ∃ delay ∈ stream.delays, timeouts.bytestreamIdleTimeout < delay := by
  constructor
  · intro α attempt
    rw [attemptOutcome_eq_elapsed_iff]
    dsimp only [CasOperation.timeout]
    by_cases hidle : ∃ delay ∈ attempt.delays, timeouts.bytestreamIdleTimeout < delay
    · obtain ⟨delay, hmem, hlt⟩ := hidle
      have hsum : timeouts.bytestreamIdleTimeout < attempt.delays.sum :=
        lt_of_lt_of_le hlt (List.single_le_sum (fun _ _ => Nat.zero_le _) _ hmem)
      have hexists : ∃ delay ∈ attempt.delays, timeouts.bytestreamIdleTimeout < delay :=
        ⟨delay, hmem, hlt⟩
      simp only [hsum, hexists, or_true]
    · simp only [hidle, iff_false, or_false, not_lt]
  · intro stream
    exact idle_mem_readEvents_iff timeouts stream.ending stream.chunks

/-- A write whose attempts all take longer than the timeout fails, whatever progress they
make. -/
theorem retryRpcTimed_eq_elapsed {α : Type} {config : CasConfig} {timeouts : CasTimeouts}
    {operation : CasOperation} {op : ℕ → Timed (Except Status α)}
    (hpos : 1 ≤ config.maxAttempts)
    (hslow : ∀ calls, operation.timeout timeouts < (op calls).delays.sum) :
    (retryRpcTimed config timeouts operation op).result =
      .error (rpcError config operation config.maxAttempts
        ⟨.deadlineExceeded, "operation attempt timed out"⟩) := by
  have helapsed : ∀ calls, attemptOutcome timeouts operation (op calls) = .error .elapsed :=
    fun calls => (attemptOutcome_eq_elapsed_iff _ _ _).mpr (hslow calls)
  obtain ⟨k, -, -, hstop, hrun⟩ := retryRpcFrom_stops config operation
    (fun calls => attemptOutcome timeouts operation (op calls)) 1 0 hpos
  rw [retryRpcTimed, retryRpcRun, hrun, helapsed]
  rcases hstop with hlast | hother
  · rw [hlast]
    rfl
  · exact absurd ⟨_, helapsed _, rfl⟩ hother

namespace Sample

/-- An attempt that makes progress every second, 31 times. -/
def steady : Timed (Except Status Unit) where
  delays := List.replicate 31 (.fromSecs 1)
  output := .ok ()

end Sample

/-- No delay of the steady write exceeds the timeout of 30 seconds, but its attempts are all
aborted. -/
theorem steady_write_aborted :
    ¬ (attemptOutcome .defaults .byteStreamWrite Sample.steady = .error .elapsed ↔
      ∃ delay ∈ Sample.steady.delays, CasTimeouts.defaults.bytestreamIdleTimeout < delay) ∧
    (retryRpcTimed (CasConfig.defaults "grpc://localhost:9092" "main") .defaults
        .byteStreamWrite fun _ => Sample.steady).result =
      .error (rpcError (CasConfig.defaults "grpc://localhost:9092" "main") .byteStreamWrite 5
        ⟨.deadlineExceeded, "operation attempt timed out"⟩) := by
  have hslow : CasOperation.timeout .byteStreamWrite .defaults < Sample.steady.delays.sum := by
    decide
  refine ⟨?_, retryRpcTimed_eq_elapsed (by decide) fun _ => hslow⟩
  intro h
  obtain ⟨delay, hmem, hlt⟩ := h.mp ((attemptOutcome_eq_elapsed_iff _ _ _).mpr hslow)
  rw [List.eq_of_mem_replicate hmem] at hlt
  exact absurd hlt (by decide)

end Cas

end RemoteFs
