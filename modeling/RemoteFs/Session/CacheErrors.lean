import RemoteFs.Session.CacheSteps
import RemoteFs.Session.FacadeSpec

/-!
# Failures of the cache

Every failure a call of the cache returns is an internal error, whatever the remote store
and the file system answer. `FromCache` says that the cache reads of an operation are results
of calls of the cache.
-/

namespace RemoteFs

namespace Session

namespace Cache

def Phase.Internal : Phase → Prop
  | .unlocking _ result => ∀ e, result = .error e → e.kind = .internal
  | .releasing _ result => ∀ e, result = .error e → e.kind = .internal
  | .departing _ e => e.kind = .internal
  | .returned result => ∀ e, result = .error e → e.kind = .internal
  | _ => True

theorem startFailure_kind (root : PathBuf) (digest : Digest) (failure : StartFailure) :
    (startFailure root digest failure).kind = .internal := by
  cases failure <;> rfl

theorem admitFailure_kind (destination : PathBuf) (failure : AdmitFailure) :
    (admitFailure destination failure).kind = .internal := by
  cases failure <;> rfl

theorem Call.ensure_internal (call : Call) {result : Except SessionError Bool}
    (h : ∀ e, result = .error e → e.kind = .internal) :
    (call.ensure result).phase.Internal := by
  cases result with
  | ok downloaded => trivial
  | error e =>
      intro e' he
      cases he
      exact h e rfl

theorem acquireDownloadLock_error {shared : Shared} {digest : Digest} {e : SessionError}
    (h : shared.acquireDownloadLock digest = .error e) : e.kind = .internal := by
  unfold Shared.acquireDownloadLock at h
  split at h
  · cases h
    rfl
  · split at h <;> cases h

theorem releaseDownloadLock_error {shared : Shared} {digest : Digest} {lock : ℕ}
    {e : SessionError} (h : shared.releaseDownloadLock digest lock = some (.error e)) :
    e.kind = .internal := by
  unfold Shared.releaseDownloadLock at h
  split at h
  · cases h
    rfl
  · split at h
    · cases h
    · split at h <;> cases h

theorem readFileRange_error {files : PathBuf → Option Bytes} {path : PathBuf}
    {offset size : ℕ} {reads : FileReads} {e : SessionError}
    (h : readFileRange files path offset size reads = .error e) : e.kind = .internal := by
  unfold readFileRange at h
  split at h
  · cases h
    rfl
  · cases h
    rfl
  · split at h
    · cases h
      rfl
    · dsimp only at h
      split at h
      · cases h
        rfl
      · cases h

theorem readCachedBlob_error {root : PathBuf} {files : PathBuf → Option Bytes}
    {digest : Digest} {reads : FileReads} {e : SessionError}
    (h : readCachedBlob root files digest reads = .error e) : e.kind = .internal := by
  unfold readCachedBlob at h
  split at h
  · cases h
    rfl
  · split at h
    · cases h
      rfl
    · cases h

theorem serve_error {root : PathBuf} {shared : Shared} {call : Call} {downloaded : Bool}
    {reads : FileReads} {e : SessionError}
    (h : serve root shared call downloaded reads = .error e) : e.kind = .internal := by
  obtain h | ⟨bytes, -, h⟩ := (Result.bind_eq_error_iff _ _ _).mp h
  · unfold readAdmitted at h
    split at h
    · exact readCachedBlob_error h
    · exact readFileRange_error h
  · cases h

section Steps

variable [Sha256] {root : PathBuf} {index : ℕ} {action : Action} {shared shared' : Shared}
  {call call' : Call}

theorem verify_error {pending : PendingBlob} {e : SessionError}
    (h : pending.verify = some (.error e)) : e.kind = .internal := by
  unfold PendingBlob.verify at h
  split at h
  · split at h
    · cases h
    · split at h
      · cases h
      · cases h
        rfl
  · cases h

theorem FillFails.error_kind {lock : ℕ} {e : SessionError} (h : FillFails root call lock e) :
    e.kind = .internal := by
  cases h with
  | start failure => exact startFailure_kind _ _ failure
  | stream pending source => rfl
  | verify pending e hphase hverify => exact verify_error hverify
  | admission pending failure => exact admitFailure_kind _ failure

/-- A step of a call carries internal failures only. -/
theorem Advances.internal (h : Advances root index action shared call shared' call')
    (hinternal : call.phase.Internal) : call'.phase.Internal := by
  -- A call ends with an error of its step or with the one it carries already.
  have hcarried : ∀ {phase : Phase}, call.phase = phase → phase.Internal := by
    rintro _ rfl
    exact hinternal
  have hfailed : ∀ {e : SessionError}, e.kind = .internal →
      ∀ e', (.error e : Except SessionError Bool) = .error e' → e'.kind = .internal := by
    rintro e hkind _ ⟨⟩
    exact hkind
  cases h with
  | hit => exact call.ensure_internal (fun e he => nomatch he)
  | coordinateFailed e hphase hacquire =>
      exact call.ensure_internal (hfailed (acquireDownloadLock_error hacquire))
  | recheckHit => exact nofun
  | fail lock e hfails => exact hfailed hfails.error_kind
  | persist => exact nofun
  | admitted => exact nofun
  | unlock lock result hphase => exact (hcarried hphase :)
  | release lock result _ hphase =>
      exact call.ensure_internal (hcarried hphase :)
  | releaseFailed lock result e hphase hrelease =>
      exact call.ensure_internal (hfailed (releaseDownloadLock_error hrelease))
  | leave => rfl
  | leaveFailed lock e hphase hrelease => exact releaseDownloadLock_error hrelease
  | depart lock e hphase =>
      exact call.ensure_internal (hfailed (hcarried hphase :))
  | read downloaded reads => exact fun e he => serve_error he
  | _ => trivial

theorem step_internal {state state' : State} {move : Move}
    (h : ∀ (i : ℕ) call, state.threads[i]? = some call → call.phase.Internal)
    (hstep : step root state move = some state') :
    ∀ (i : ℕ) call, state'.threads[i]? = some call → call.phase.Internal := by
  obtain ⟨arguments, -, rfl⟩ | ⟨i, action, call, shared', call', -, hcall, hact, rfl⟩ :=
    Pool.step_cases hstep
  · intro j other hother
    obtain hold | rfl := Pool.getElem?_append_cases hother
    · exact h j other hold
    · trivial
  · intro j other hother
    obtain ⟨-, rfl⟩ | ⟨-, hold⟩ := Pool.getElem?_set_cases hother
    · exact (advance_advances hact).internal (h i call hcall)
    · exact h j other hold

/-- A result that a call returns in some run of the cache. -/
def Returns (root : PathBuf) (digest : Digest) (request : Request)
    (result : Except SessionError (Bytes × Bool)) : Prop :=
  ∃ (files : PathBuf → Option Bytes) (moves : List Move) (state : State) (i : ℕ) (call : Call),
    Transition.run (step root) (start files) moves = some state ∧
      state.threads[i]? = some call ∧ call.digest = digest ∧ call.request = request ∧
      call.phase = .returned result

theorem Returns.error {digest : Digest} {request : Request} {e : SessionError}
    (h : Returns root digest request (.error e)) : e.kind = .internal := by
  obtain ⟨files, moves, state, i, call, hrun, hcall, -, -, hphase⟩ := h
  have hinternal : ∀ (i : ℕ) call, state.threads[i]? = some call → call.phase.Internal :=
    Transition.run_invariant (fun s move s' hs hstep => step_internal hs hstep) moves
      (start files) state (fun i call hcall => by simp [start] at hcall) hrun
  have hinternal := hinternal i call hcall
  rw [hphase] at hinternal
  exact hinternal e rfl

end Steps

end Cache

/-- The cache reads of an operation are what calls of the cache return. -/
structure FromCache [Sha256] (root : PathBuf) (env : Surroundings) : Prop where
  readBlob : ∀ digest, Cache.Returns root digest .readBlob (env.readBlob digest)
  readRange : ∀ digest offset size,
    Cache.Returns root digest (.readRange offset size) (env.readRange digest offset size)

section FromCache

variable [Sha256] {root : PathBuf} {env : Surroundings}

theorem FromCache.blob_error (h : FromCache root env) {digest : Digest} {e : SessionError}
    (herror : env.readBlob digest = .error e) : e.kind = .internal :=
  (herror ▸ h.readBlob digest).error

theorem FromCache.range_error (h : FromCache root env) {digest : Digest} {offset size : ℕ}
    {e : SessionError} (herror : env.readRange digest offset size = .error e) :
    e.kind = .internal :=
  (herror ▸ h.readRange digest offset size).error

theorem FromCache.fetchChildren_error [Prost] (h : FromCache root env) {digest : Digest}
    {e : SessionError} (herror : fetchChildren env digest = .error e) : e.kind = .internal := by
  rw [fetchChildren] at herror
  obtain hread | ⟨read, -, herror⟩ := (Result.bind_eq_error_iff _ _ _).mp herror
  · exact h.blob_error hread
  · obtain hdecode | ⟨directory, -, herror⟩ := (Result.bind_eq_error_iff _ _ _).mp herror
    · cases hdirectory : Tree.decodeDirectory digest read.1 with
      | ok directory =>
          rw [hdirectory] at hdecode
          cases hdecode
      | error source =>
          rw [hdirectory] at hdecode
          cases hdecode
          rfl
    · obtain hchildren | ⟨children, -, herror⟩ := (Result.bind_eq_error_iff _ _ _).mp herror
      · exact decodedDirectoryChildren_error hchildren
      · cases herror

end FromCache

namespace Sample

/-- A cache whose directory has no room: every read fails before its stream starts. -/
def fullDisk (root : PathBuf) : Surroundings where
  inodeSqlite := fun _ => none
  loadSqlite := fun _ => none
  readSqlite := fun _ => none
  readBlob digest := .error (Cache.startFailure root digest (.create "no space left"))
  readRange digest _ _ := .error (Cache.startFailure root digest (.create "no space left"))
  readOverlay _ _ _ := .error (internalError "no overlay")

theorem returns_fullDisk [Sha256] (root : PathBuf) (digest : Digest) (request : Cache.Request) :
    Cache.Returns root digest request
      (.error (Cache.startFailure root digest (.create "no space left"))) :=
  ⟨fun _ => none, [.spawn (digest, request), .act 0 .check, .act 0 .acquire,
    .act 0 .enterGate, .act 0 .recheck, .act 0 (.startPendingBlob (some (.create "no space left"))),
    .act 0 .unlock, .act 0 .release], _, 0, _, rfl, rfl, rfl, rfl, rfl⟩

theorem fullDisk_fromCache [Sha256] (root : PathBuf) : FromCache root (fullDisk root) :=
  ⟨fun digest => returns_fullDisk root digest .readBlob,
    fun digest offset size => returns_fullDisk root digest (.readRange offset size)⟩

end Sample

end Session

end RemoteFs
