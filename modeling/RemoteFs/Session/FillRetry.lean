import RemoteFs.Session.SingleFlight

/-!
# Retrying a failed fill

When no stream panics, the map of download locks is empty whenever no call is in
progress, so the next read of a digest whose fill failed starts a fresh fill. A call
that panics while it holds the gate skips its release: its entry stays in the map
with a poisoned gate, and every later read of the digest fails.
-/

namespace RemoteFs

namespace Session

namespace Cache

def StreamReturns : Move → Prop
  | .act _ .panicStream => False
  | _ => True

section Cleanup

variable [Sha256] {root : PathBuf} {index : ℕ} {action : Action} {shared shared' : Shared}
  {call call' : Call}

/-- A step panics only inside the stream. -/
theorem Advances.not_panicked (h : Advances root index action shared call shared' call')
    (hreturns : action ≠ .panicStream)
    (hrelease : ∀ lock, call.phase.joined = some lock →
      shared.releaseDownloadLock call.digest lock ≠ none)
    (hpending : call.PendingSound root) (lock : ℕ) : call'.phase ≠ .panicked lock := by
  cases h with
  | panic lock' hphase hcause =>
      obtain hpanic | ⟨pending, hadmitting, hverify⟩ := hcause
      · exact absurd hpanic hreturns
      · obtain ⟨hconsistent, -, -⟩ := hpending.admitting hadmitting
        obtain ⟨hok, -⟩ | ⟨e, herror, -⟩ := hconsistent.verify_cases
        · rw [hverify] at hok
          cases hok
        · rw [hverify] at herror
          cases herror
  | releasePanic lock' result hphase hnone =>
      exact absurd hnone (hrelease lock' (by rw [hphase]; rfl))
  | leavePanic lock' hphase hnone =>
      exact absurd hnone (hrelease lock' (by rw [hphase]; rfl))
  | release lock' result => cases result <;> exact fun hphase => nomatch hphase
  | _ => exact fun hphase => nomatch hphase

def NoPanics (state : State) : Prop :=
  ∀ (i : ℕ) call lock, state.threads[i]? = some call → call.phase ≠ .panicked lock

theorem NoPanics.step {initial : PathBuf → Option Bytes} {state state' : State} {move : Move}
    (h : NoPanics state) (hlocks : Coordinated state) (hfilled : Filled root initial state)
    (hreturns : StreamReturns move) (hstep : step root state move = some state') :
    NoPanics state' := by
  obtain ⟨arguments, -, rfl⟩ | ⟨i, action, call, shared', call', rfl, hcall, hact, rfl⟩ :=
    Pool.step_cases hstep
  · intro j other lock hother
    obtain hold | rfl := Pool.getElem?_append_cases hother
    · exact h j other lock hold
    · exact fun hphase => nomatch hphase
  · intro j other lock hother
    obtain ⟨-, rfl⟩ | ⟨-, hold⟩ := Pool.getElem?_set_cases hother
    · refine (advance_advances hact).not_panicked ?_ (hlocks.release_ne_none hcall)
        (hfilled.pending i call hcall) lock
      rintro rfl
      exact hreturns
    · exact h j other lock hold

omit [Sha256] in
theorem Call.Recorded.joined_eq_none (h : call.Recorded) (hdone : ¬ call.InProgress)
    (hpanics : ∀ lock, call.phase ≠ .panicked lock) : call.phase.joined = none := by
  cases hended : call.phase.ended with
  | true =>
      cases hphase : call.phase <;> rw [hphase] at hended <;> first | rfl | cases hended
  | false => exact absurd ⟨h.ensured hended, hpanics⟩ hdone

omit [Sha256] in
theorem downloadLocks_eq_none {initial : PathBuf → Option Bytes} {state : State}
    (hlocks : Coordinated state) (hfilled : Filled root initial state)
    (hpanics : NoPanics state) (hdone : ∀ call ∈ state.threads, ¬ call.InProgress)
    (digest : Digest) : state.shared.downloadLocks digest = none := by
  by_contra hsome
  obtain ⟨lock, hentry⟩ := Option.ne_none_iff_exists'.mp hsome
  obtain ⟨l, -, hpositive, hcount⟩ := hlocks.entry digest lock hentry
  rw [hcount, List.countP_pos_iff] at hpositive
  obtain ⟨call, hcall, hmember⟩ := hpositive
  obtain ⟨i, hi⟩ := List.mem_iff_getElem?.mp hcall
  obtain ⟨-, hjoined⟩ := of_decide_eq_true hmember
  exact hjoined ((hfilled.recorded i call hi).joined_eq_none (hdone call hcall)
    (hpanics i call · hi))

end Cleanup

/-! ### A fresh fill -/

/-- The steps of a call that finds no entry and receives the chunks of the blob. -/
def fill (chunks : List Bytes) : List Action :=
  [Action.check, .acquire, .enterGate, .recheck, .startPendingBlob none] ++
    (chunks.map (fun chunk => Action.write chunk (.ok chunk.length)) ++
      [Action.finishStream none, .admitPendingBlob none, .unlock, .release])

section Fresh

variable [Sha256] {root : PathBuf}

theorem run_writes (root : PathBuf) (index lock : ℕ) (shared : Shared) (call : Call)
    (chunks : List Bytes) :
    ∀ pending : PendingBlob, pending.Consistent →
      pending.written + chunks.flatten.length ≤ pending.expected.sizeBytes →
      ∃ pending', Transition.run (fun (st : Shared × Call) a => advance root index a st.1 st.2)
          (shared, call.goto (.streaming lock pending))
          (chunks.map fun chunk => .write chunk (.ok chunk.length)) =
            some (shared, call.goto (.streaming lock pending')) ∧
        pending'.Consistent ∧ pending'.expected = pending.expected ∧
        pending'.destination = pending.destination ∧
        pending'.temporary = pending.temporary ++ chunks.flatten := by
  induction chunks with
  | nil =>
      intro pending hconsistent _
      exact ⟨pending, rfl, hconsistent, rfl, rfl, by simp⟩
  | cons chunk chunks ih =>
      intro pending hconsistent hfits
      rw [List.flatten_cons, List.length_append] at hfits
      have hlegal : ∀ count, (.ok chunk.length : Except IoError ℕ) = .ok count →
          count ≤ chunk.length := by
        intro count hcount
        cases hcount
        exact le_refl _
      have hnext := hconsistent.write chunk (.ok chunk.length) hlegal
      obtain ⟨e, hwrite⟩ | ⟨count, hcount, -, hwrite⟩ :=
        pending.write_cases chunk (.ok chunk.length)
      · exact absurd hwrite (pending.write_ne_error (by omega) e)
      · cases hcount
        rw [List.take_length] at hwrite
        obtain ⟨pending', hrun, hconsistent', hexpected, hdestination, htemporary⟩ :=
          ih _ hnext (by rw [hwrite]; dsimp only; omega)
        rw [hwrite] at hexpected hdestination htemporary
        refine ⟨pending', ?_, hconsistent', hexpected, hdestination, ?_⟩
        · refine (Transition.run_cons_eq_some_iff _ _ _ _ _).mpr ⟨_, ?_, hrun⟩
          simp [advance, Call.goto, Except.toOption]
        · rw [htemporary, List.flatten_cons, List.append_assoc]

/-- A call that starts when its digest has neither an entry nor a lock, and whose
stream delivers the blob, reports the download. -/
theorem run_fill (root : PathBuf) (index : ℕ) (shared : Shared) (digest : Digest)
    (request : Request) (chunks : List Bytes) (hpoisoned : shared.poisoned = false)
    (habsent : shared.files (path root digest) = none)
    (hunlocked : shared.downloadLocks digest = none) (hblob : digest.Names chunks.flatten) :
    ∃ shared' call', Transition.run
        (fun (st : Shared × Call) a => advance root index a st.1 st.2)
        (shared, Call.begin (digest, request)) (fill chunks) = some (shared', call') ∧
      call'.ensured = some (.ok true) := by
  let call := Call.begin (digest, request)
  let lock := shared.heap.length
  let held : Shared :=
    { shared with
      downloadLocks := Function.update shared.downloadLocks digest (some lock)
      heap := shared.heap ++ [{ gate := some index, poisoned := false, participants := 1 }] }
  have hopen : Transition.run (fun (st : Shared × Call) a => advance root index a st.1 st.2)
      (shared, call) [.check, .acquire, .enterGate, .recheck, .startPendingBlob none] =
        some (held, call.goto (.streaming lock (.new digest (path root digest)))) := by
    simp [Transition.run, advance, call, Call.begin, Call.goto, Shared.cacheContains, habsent,
      Shared.acquireDownloadLock, hpoisoned, hunlocked, enterGate, held, lock]
  obtain ⟨pending, hwrites, hconsistent, hexpected, hdestination, htemporary⟩ :=
    run_writes root index lock held call chunks (.new digest (path root digest))
      (PendingBlob.new_consistent digest _) (by
        have hsize := hblob.2
        simp only [PendingBlob.new]
        omega)
  have hverify : pending.verify = some (.ok ()) := by
    obtain ⟨hok, -⟩ | ⟨e, -, hwrong⟩ := hconsistent.verify_cases
    · exact hok
    · refine absurd ?_ hwrong
      rw [hexpected, htemporary]
      exact hblob
  have hadmit : shared.files pending.destination = none := by
    rw [hdestination]
    exact habsent
  have hclose : ∃ shared' call', Transition.run
      (fun (st : Shared × Call) a => advance root index a st.1 st.2)
      (held, call.goto (.streaming lock pending))
      [.finishStream none, .admitPendingBlob none, .unlock, .release] = some (shared', call') ∧
        call'.ensured = some (.ok true) := by
    have hdropped : ∀ (l : DownloadLock) f,
        (shared.heap ++ [l]).modify shared.heap.length f = shared.heap ++ [f l] := by
      intro l f
      rw [Pool.modify_eq_set (Pool.getElem?_concat shared.heap l), Pool.set_concat]
    simp [Transition.run, advance, Call.goto, admitPendingBlob, hverify, persistNoclobber,
      hadmit, Shared.dropGuard, hdropped, releaseResult, Shared.releaseDownloadLock, held,
      hpoisoned, lock, Call.ensure]
  obtain ⟨shared', call', hrun, hensured⟩ := hclose
  refine ⟨shared', call', ?_, hensured⟩
  rw [fill, Transition.run_append _ _ _ _ _ hopen, Transition.run_append _ _ _ _ _ hwrites]
  exact hrun

end Fresh

/-! ### Recovery -/

/-- No digest is locked, and the next read of a digest without an entry fills the
cache when the remote serves the blob. -/
structure Recovers [Sha256] (root : PathBuf) (state : State) : Prop where
  unlocked : ∀ digest, state.shared.downloadLocks digest = none
  retry : ∀ (digest : Digest) request chunks,
    state.shared.files (path root digest) = none → digest.Names chunks.flatten →
    ∃ state' call, Transition.run (step root) state
        (.spawn (digest, request) :: (fill chunks).map (.act state.threads.length)) =
          some state' ∧
      state'.threads[state.threads.length]? = some call ∧ call.ensured = some (.ok true)

/-- In every state of every run without a panicking stream in which no call is in
progress, every digest can be read again. -/
theorem failed_fill_recovers [Sha256] (root : PathBuf) (files : PathBuf → Option Bytes)
    (moves : List Move) (state : State) (hreturns : ∀ move ∈ moves, StreamReturns move)
    (hrun : Transition.run (step root) (start files) moves = some state)
    (hdone : ∀ call ∈ state.threads, ¬ call.InProgress) : Recovers root state := by
  have hinvariant : Coordinated state ∧ Filled root files state ∧ NoPanics state := by
    have hkept : ∀ s move s', StreamReturns move →
        (Coordinated s ∧ Filled root files s ∧ NoPanics s) → step root s move = some s' →
        Coordinated s' ∧ Filled root files s' ∧ NoPanics s' := by
      rintro s move s' hmove ⟨hlocks, hfilled, hpanics⟩ hstep
      exact ⟨hlocks.step hstep, hfilled.step hlocks hstep,
        hpanics.step hlocks hfilled hmove hstep⟩
    refine Transition.run_invariant_of_mem hkept moves (start files) state hreturns ?_ hrun
    · refine ⟨coordinated_start files, filled_start root files, ?_⟩
      intro i call lock hcall
      simp [start] at hcall
  obtain ⟨hlocks, hfilled, hpanics⟩ := hinvariant
  have hunlocked := downloadLocks_eq_none hlocks hfilled hpanics hdone
  refine ⟨hunlocked, ?_⟩
  intro digest request chunks habsent hblob
  obtain ⟨shared', call', hfill, hensured⟩ := run_fill root state.threads.length
    state.shared digest request chunks hlocks.unpoisoned habsent (hunlocked digest) hblob
  have hsolo := Pool.run_last Call.begin state.threads (fill chunks) hfill
  exact ⟨_, call', hsolo, Pool.getElem?_concat state.threads call', hensured⟩

namespace Sample

/-- A stream that fails, and one that panics while the gate is held. -/
def brokenMoves (ending : Action) : List Move :=
  .spawn (digest, .readBlob) ::
    [.check, .acquire, .enterGate, .recheck, .startPendingBlob none, ending].map (.act 0)

def failedMoves : List Move :=
  brokenMoves (.finishStream (some "unavailable")) ++ [.act 0 .unlock, .act 0 .release]

def refusedMoves : List Move :=
  .spawn (digest, .readBlob) ::
    [.check, .acquire, .enterGate, .release, .depart].map (.act 1)

theorem failedMoves_return : ∀ move ∈ failedMoves, StreamReturns move := by
  simp [failedMoves, brokenMoves, StreamReturns]

end Sample

instance (call : Call) : Decidable call.InProgress :=
  match hphase : call.phase with
  | .panicked lock => .isFalse fun h => h.2 lock hphase
  | .checking | .acquiring | .waiting _ | .rechecking _ | .starting _ | .streaming _ _
  | .admitting _ _ | .unlocking _ _ | .releasing _ _ | .refused _ | .departing _ _
  | .reading _ | .returned _ =>
      decidable_of_iff (call.ensured = none) (by simp [Call.InProgress, hphase])

theorem failed_fill_recovers_sample :
    letI : Sha256 := Sample.sha256
    ∃ state, Transition.run (step []) (start fun _ => none) Sample.failedMoves = some state ∧
      (∀ call ∈ state.threads, ¬ call.InProgress) ∧ Recovers [] state := by
  let _ : Sha256 := Sample.sha256
  have hended : (Transition.run (step []) (start fun _ => none) Sample.failedMoves).map
      (fun state => decide (∀ call ∈ state.threads, ¬ call.InProgress)) = some true := by
    decide +kernel
  obtain ⟨state, hrun, hstate⟩ := Option.map_eq_some_iff.mp hended
  have hdone := of_decide_eq_true hstate
  exact ⟨state, hrun, hdone, failed_fill_recovers [] (fun _ => none) Sample.failedMoves state
    Sample.failedMoves_return hrun hdone⟩

/-- After a stream panicked no call is in progress, yet the digest stays locked and
the next read fails. -/
theorem panicked_fill_blocks_digest :
    letI : Sha256 := Sample.sha256
    ∃ state state' call,
      Transition.run (step []) (start fun _ => none) (Sample.brokenMoves .panicStream) =
        some state ∧
      (∀ call ∈ state.threads, ¬ call.InProgress) ∧
      state.shared.downloadLocks Sample.digest = some 0 ∧
      Transition.run (step []) state Sample.refusedMoves = some state' ∧
      state'.threads[1]? = some call ∧
      call.ensured = some (.error (internalError
        s!"wait for blob download {Sample.digest.display}: download gate is poisoned")) ∧
      state'.shared.downloadLocks Sample.digest = some 0 := by
  let _ : Sha256 := Sample.sha256
  have hpanicked : (Transition.run (step []) (start fun _ => none)
      (Sample.brokenMoves .panicStream)).map (fun state =>
        (decide (∀ call ∈ state.threads, ¬ call.InProgress),
          state.shared.downloadLocks Sample.digest)) = some (true, some 0) := by
    decide +kernel
  have hrefused : (Transition.run (step []) (start fun _ => none)
      (Sample.brokenMoves .panicStream ++ Sample.refusedMoves)).map (fun state =>
        (state.threads[1]?.map Call.ensured, state.shared.downloadLocks Sample.digest)) =
      some (some (some (.error (internalError
        s!"wait for blob download {Sample.digest.display}: download gate is poisoned"))),
        some 0) := by
    decide +kernel
  obtain ⟨state, hrun, hstate⟩ := Option.map_eq_some_iff.mp hpanicked
  obtain ⟨state', hrun', hstate'⟩ := Option.map_eq_some_iff.mp hrefused
  rw [Transition.run_append _ _ _ _ _ hrun] at hrun'
  obtain ⟨hdone, hlocked⟩ := Prod.mk.inj hstate
  obtain ⟨hcall, hlocked'⟩ := Prod.mk.inj hstate'
  obtain ⟨call, hcall, hensured⟩ := Option.map_eq_some_iff.mp hcall
  exact ⟨state, state', call, hrun, of_decide_eq_true hdone, hlocked, hrun', hcall, hensured,
    hlocked'⟩

end Cache

end Session

end RemoteFs
