import RemoteFs.Session.Cache

/-!
# What a step of the cache can do

`Advances` lists the transitions of a call with the conditions under which they are
taken. It is read off `advance` once, by `advance_advances`; invariants are proved by
cases on it.
-/

namespace RemoteFs

namespace Session

namespace Cache

theorem path_injective (root : PathBuf) : Function.Injective (path root) := by
  intro d e h
  have hentry := (List.append_inj' h rfl).2
  have htext := congrArg String.toList (OsStr.utf8.inj (List.cons.inj hentry).1)
  have hname : ∀ d : Digest, (d.hash ++ "-" ++ toString d.sizeBytes).toList =
      d.hash.toList ++ '-' :: Nat.toDigits 10 d.sizeBytes := by
    intro d
    simp
  have hdash : ∀ d : Digest, '-' ∉ d.hash.toList := by
    intro d hmem
    exact List.any_eq_false.mp d.hash_valid.chars '-' hmem (by decide)
  rw [hname, hname] at htext
  have hsplit := congrArg (splitOnce '-') htext
  rw [splitOnce_append '-' _ _ (hdash d), splitOnce_append '-' _ _ (hdash e),
    Option.some.injEq, Prod.mk.injEq] at hsplit
  refine Digest.ext (String.toList_inj.mp hsplit.1) ?_
  have hsize := congrArg parseI64 hsplit.2
  rw [Digest.parseI64_toDigits _ d.size_le, Digest.parseI64_toDigits _ e.size_le] at hsize
  exact Option.some.inj hsize

def Phase.filling : Phase → Option ℕ
  | .starting lock => some lock
  | .streaming lock _ => some lock
  | .admitting lock _ => some lock
  | _ => none

/-- The failures of a call that fills the cache under a lock. -/
inductive FillFails [Sha256] (root : PathBuf) (call : Call) (lock : ℕ) : SessionError → Prop
  | start (failure : StartFailure) (hphase : call.phase = .starting lock) :
      FillFails root call lock (startFailure root call.digest failure)
  | stream (pending : PendingBlob) (source : String)
      (hphase : call.phase = .streaming lock pending) :
      FillFails root call lock
        (internalError s!"stream remote blob {call.digest.display}: {source}")
  | verify (pending : PendingBlob) (e : SessionError)
      (hphase : call.phase = .admitting lock pending)
      (hverify : pending.verify = some (.error e)) : FillFails root call lock e
  | admission (pending : PendingBlob) (failure : AdmitFailure)
      (hphase : call.phase = .admitting lock pending) :
      FillFails root call lock (admitFailure pending.destination failure)

inductive Advances [Sha256] (root : PathBuf) (index : ℕ) (action : Action) (shared : Shared)
    (call : Call) : Shared → Call → Prop
  | hit (hphase : call.phase = .checking)
      (hcontains : shared.cacheContains root call.digest = true) :
      Advances root index action shared call shared (call.ensure (.ok false))
  | miss (hphase : call.phase = .checking) :
      Advances root index action shared call shared (call.goto .acquiring)
  | coordinateFailed (e : SessionError) (hphase : call.phase = .acquiring)
      (hacquire : shared.acquireDownloadLock call.digest = .error e) :
      Advances root index action shared call shared (call.ensure (.error e))
  | acquire (lock : ℕ) (shared' : Shared) (hphase : call.phase = .acquiring)
      (hacquire : shared.acquireDownloadLock call.digest = .ok (lock, shared')) :
      Advances root index action shared call shared' (call.goto (.waiting lock))
  | enter (lock : ℕ) (l : DownloadLock) (hphase : call.phase = .waiting lock)
      (hlock : shared.heap[lock]? = some l) (hgate : l.gate = none) (hpoisoned : ¬ l.poisoned) :
      Advances root index action shared call
        { shared with heap := shared.heap.set lock { l with gate := some index } }
        (call.goto (.rechecking lock))
  | refuse (lock : ℕ) (l : DownloadLock) (hphase : call.phase = .waiting lock)
      (hlock : shared.heap[lock]? = some l) (hgate : l.gate = none) (hpoisoned : l.poisoned) :
      Advances root index action shared call
        { shared with heap := shared.heap.set lock { l with gate := some index } }
        (call.goto (.refused lock))
  | recheckHit (lock : ℕ) (hphase : call.phase = .rechecking lock)
      (hcontains : shared.cacheContains root call.digest = true) :
      Advances root index action shared call shared (call.goto (.unlocking lock (.ok false)))
  | recheckMiss (lock : ℕ) (hphase : call.phase = .rechecking lock)
      (hcontains : shared.cacheContains root call.digest = false) :
      Advances root index action shared call shared (call.goto (.starting lock))
  | startPending (lock : ℕ) (hphase : call.phase = .starting lock) :
      Advances root index action shared call shared
        (call.goto (.streaming lock (.new call.digest (path root call.digest))))
  | write (lock : ℕ) (pending : PendingBlob) (bytes : Bytes) (file : Except IoError ℕ)
      (hphase : call.phase = .streaming lock pending)
      (hfile : ∀ count, file = .ok count → count ≤ bytes.length) :
      Advances root index action shared call shared
        (call.goto (.streaming lock (pending.write bytes file).2))
  | finish (lock : ℕ) (pending : PendingBlob) (hphase : call.phase = .streaming lock pending) :
      Advances root index action shared call shared (call.goto (.admitting lock pending))
  | fail (lock : ℕ) (e : SessionError) (hfails : FillFails root call lock e) :
      Advances root index action shared call shared (call.goto (.unlocking lock (.error e)))
  | panic (lock : ℕ) (hphase : call.phase.filling = some lock)
      (hcause : action = .panicStream ∨
        ∃ pending, call.phase = .admitting lock pending ∧ pending.verify = none) :
      Advances root index action shared call (shared.dropGuard lock true)
        (call.goto (.panicked lock))
  | persist (lock : ℕ) (pending : PendingBlob) (hphase : call.phase = .admitting lock pending)
      (hverify : pending.verify = some (.ok ()))
      (habsent : shared.files pending.destination = none) :
      Advances root index action shared call
        { shared with
          files := Function.update shared.files pending.destination (some pending.temporary) }
        { call.goto (.unlocking lock (.ok true)) with admitted := true }
  | admitted (lock : ℕ) (pending : PendingBlob) (hphase : call.phase = .admitting lock pending)
      (hverify : pending.verify = some (.ok ()))
      (hpresent : shared.files pending.destination ≠ none) :
      Advances root index action shared call shared
        { call.goto (.unlocking lock (.ok true)) with admitted := false }
  | unlock (lock : ℕ) (result : Except SessionError Bool)
      (hphase : call.phase = .unlocking lock result) :
      Advances root index action shared call (shared.dropGuard lock false)
        (call.goto (.releasing lock result))
  | release (lock : ℕ) (result : Except SessionError Bool) (shared' : Shared)
      (hphase : call.phase = .releasing lock result)
      (hrelease : shared.releaseDownloadLock call.digest lock = some (.ok shared')) :
      Advances root index action shared call shared' (call.ensure result)
  | releaseFailed (lock : ℕ) (result : Except SessionError Bool) (e : SessionError)
      (hphase : call.phase = .releasing lock result)
      (hrelease : shared.releaseDownloadLock call.digest lock = some (.error e)) :
      Advances root index action shared call shared (call.ensure (.error e))
  | releasePanic (lock : ℕ) (result : Except SessionError Bool)
      (hphase : call.phase = .releasing lock result)
      (hrelease : shared.releaseDownloadLock call.digest lock = none) :
      Advances root index action shared call { shared with poisoned := true }
        (call.goto (.panicked lock))
  | leave (lock : ℕ) (shared' : Shared) (hphase : call.phase = .refused lock)
      (hrelease : shared.releaseDownloadLock call.digest lock = some (.ok shared')) :
      Advances root index action shared call shared'
        (call.goto (.departing lock (internalError
          s!"wait for blob download {call.digest.display}: download gate is poisoned")))
  | leaveFailed (lock : ℕ) (e : SessionError) (hphase : call.phase = .refused lock)
      (hrelease : shared.releaseDownloadLock call.digest lock = some (.error e)) :
      Advances root index action shared call shared (call.goto (.departing lock e))
  | leavePanic (lock : ℕ) (hphase : call.phase = .refused lock)
      (hrelease : shared.releaseDownloadLock call.digest lock = none) :
      Advances root index action shared call { shared.dropGuard lock true with poisoned := true }
        (call.goto (.panicked lock))
  | depart (lock : ℕ) (e : SessionError) (hphase : call.phase = .departing lock e) :
      Advances root index action shared call (shared.dropGuard lock false) (call.ensure (.error e))
  | read (downloaded : Bool) (reads : FileReads) (hphase : call.phase = .reading downloaded)
      (haction : action = .read reads) :
      Advances root index action shared call shared
        (call.goto (.returned (serve root shared call downloaded reads)))

variable [Sha256] {root : PathBuf} {index : ℕ} {action : Action} {shared shared' : Shared}
  {call call' : Call}

omit [Sha256] in
theorem poisoned_of_release_error {digest : Digest} {lock : ℕ} {e : SessionError}
    (h : shared.releaseDownloadLock digest lock = some (.error e)) : shared.poisoned = true := by
  unfold Shared.releaseDownloadLock at h
  split at h
  · assumption
  · split at h
    · cases h
    · split at h <;> cases h

omit [Sha256] in
theorem poisoned_of_acquire_error {digest : Digest} {e : SessionError}
    (h : shared.acquireDownloadLock digest = .error e) : shared.poisoned = true := by
  unfold Shared.acquireDownloadLock at h
  split at h
  · assumption
  · split at h <;> cases h

omit [Sha256] in
theorem acquire_files {digest : Digest} {lock : ℕ}
    (h : shared.acquireDownloadLock digest = .ok (lock, shared')) :
    shared'.files = shared.files := by
  unfold Shared.acquireDownloadLock at h
  split at h
  · cases h
  · split at h
    · cases h
      rfl
    · cases h
      rfl

omit [Sha256] in
theorem release_files {digest : Digest} {lock : ℕ}
    (h : shared.releaseDownloadLock digest lock = some (.ok shared')) :
    shared'.files = shared.files := by
  unfold Shared.releaseDownloadLock at h
  split at h
  · cases h
  · split at h
    · cases h
    · split at h
      · cases h
      · cases h
        rfl

theorem FillFails.filling {lock : ℕ} {e : SessionError} (h : FillFails root call lock e) :
    call.phase.filling = some lock := by
  cases h with
  | start failure hphase => rw [hphase, Phase.filling]
  | stream pending source hphase => rw [hphase, Phase.filling]
  | verify pending e hphase => rw [hphase, Phase.filling]
  | admission pending failure hphase => rw [hphase, Phase.filling]

theorem admitPendingBlob_advances {lock : ℕ} {pending : PendingBlob}
    {failure : Option AdmitFailure} (hphase : call.phase = .admitting lock pending) :
    Advances root index action shared call (admitPendingBlob shared call lock pending failure).1
      (admitPendingBlob shared call lock pending failure).2 := by
  unfold admitPendingBlob
  split
  · next hverify =>
      have hfilling : call.phase.filling = some lock := by rw [hphase, Phase.filling]
      exact .panic lock hfilling (.inr ⟨pending, hphase, hverify⟩)
  · next e hverify => exact .fail lock e (.verify pending e hphase hverify)
  · next failure hverify => exact .fail lock _ (.admission pending failure hphase)
  · next hverify =>
      unfold persistNoclobber
      cases hfile : shared.files pending.destination with
      | some bytes => exact .admitted lock pending hphase hverify (by simp [hfile])
      | none => exact .persist lock pending hphase hverify hfile

theorem enterGate_advances {lock : ℕ} (hphase : call.phase = .waiting lock)
    (h : enterGate index shared call lock = some (shared', call')) :
    Advances root index action shared call shared' call' := by
  rw [enterGate, Option.bind_eq_some_iff] at h
  obtain ⟨l, hlock, h⟩ := h
  split at h
  · next hgate =>
      cases h
      by_cases hpoisoned : l.poisoned
      · rw [if_pos hpoisoned]
        exact .refuse lock l hphase hlock hgate hpoisoned
      · rw [if_neg hpoisoned]
        exact .enter lock l hphase hlock hgate hpoisoned
  · cases h

theorem releaseResult_advances {lock : ℕ} {result : Except SessionError Bool}
    (hphase : call.phase = .releasing lock result) :
    Advances root index action shared call (releaseResult shared call lock result).1
      (releaseResult shared call lock result).2 := by
  unfold releaseResult
  split
  · next hrelease => exact .releasePanic lock result hphase hrelease
  · next e hrelease => exact .releaseFailed lock result e hphase hrelease
  · next hrelease => exact .release lock result _ hphase hrelease

theorem releaseRefused_advances {lock : ℕ} (hphase : call.phase = .refused lock) :
    Advances root index action shared call (releaseRefused shared call lock).1
      (releaseRefused shared call lock).2 := by
  unfold releaseRefused
  split
  · next hrelease => exact .leavePanic lock hphase hrelease
  · next e hrelease => exact .leaveFailed lock e hphase hrelease
  · next hrelease => exact .leave lock _ hphase hrelease

/-- Every step is one of the transitions. -/
theorem advance_advances
    (h : advance root index action shared call = some (shared', call')) :
    Advances root index action shared call shared' call' := by
  unfold advance at h
  split at h
  · next hphase =>
      cases h
      split
      · next hcontains => exact .hit hphase hcontains
      · exact .miss hphase
  · next hphase =>
      split at h
      · next e hacquire =>
          cases h
          exact .coordinateFailed e hphase hacquire
      · next hacquire =>
          cases h
          exact .acquire _ _ hphase hacquire
  · next hphase => exact enterGate_advances hphase h
  · next lock hphase =>
      cases h
      split
      · next hcontains => exact .recheckHit lock hphase hcontains
      · next hcontains => exact .recheckMiss lock hphase (Bool.not_eq_true _ ▸ hcontains)
  · next lock hphase =>
      split at h
      · next failure =>
          cases h
          exact .fail lock _ (.start failure hphase)
      · cases h
        exact .startPending lock hphase
  · next bytes file lock pending hphase =>
      split at h
      · next hlegal =>
          cases h
          refine .write lock pending bytes file hphase ?_
          rintro count rfl
          simpa [Except.toOption] using hlegal
      · cases h
  · next lock pending hphase =>
      split at h
      · next source =>
          cases h
          exact .fail lock _ (.stream pending source hphase)
      · cases h
        exact .finish lock pending hphase
  · next lock _ hphase =>
      cases h
      exact .panic lock (by rw [hphase]; rfl) (.inl rfl)
  · next failure lock pending hphase =>
      rw [Option.some.injEq] at h
      have hadvance : Advances root index (.admitPendingBlob failure) shared call
          (admitPendingBlob shared call lock pending failure).1
          (admitPendingBlob shared call lock pending failure).2 :=
        admitPendingBlob_advances hphase
      rwa [h] at hadvance
  · next lock result hphase =>
      cases h
      exact .unlock lock result hphase
  · next lock result hphase =>
      rw [Option.some.injEq] at h
      have hadvance : Advances root index .release shared call
          (releaseResult shared call lock result).1 (releaseResult shared call lock result).2 :=
        releaseResult_advances hphase
      rwa [h] at hadvance
  · next lock hphase =>
      rw [Option.some.injEq] at h
      have hadvance : Advances root index .release shared call
          (releaseRefused shared call lock).1 (releaseRefused shared call lock).2 :=
        releaseRefused_advances hphase
      rwa [h] at hadvance
  · next lock e hphase =>
      cases h
      exact .depart lock e hphase
  · next downloaded hphase =>
      cases h
      exact .read downloaded _ hphase rfl
  · cases h

end Cache

end Session

end RemoteFs
