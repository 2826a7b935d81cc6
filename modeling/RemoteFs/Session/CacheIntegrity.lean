import RemoteFs.Library.Result
import RemoteFs.Session.CacheSteps

/-!
# The cache holds what its paths name

Over every interleaving of calls and every behaviour of the remote streams, a file
at the final path of a digest holds the bytes the digest names and never changes
again. `Call.Sound` is what a call knows: its pending blob is consistent and meant
for its own digest, and bytes it has returned are the admitted blob or the range
asked for.
-/

namespace RemoteFs

namespace Session

namespace Cache

/-- No file changes or disappears. -/
def FilesGrow (files files' : PathBuf → Option Bytes) : Prop :=
  ∀ p bytes, files p = some bytes → files' p = some bytes

theorem FilesGrow.refl (files : PathBuf → Option Bytes) : FilesGrow files files :=
  fun _ _ h => h

theorem FilesGrow.trans {f g h : PathBuf → Option Bytes} (hfg : FilesGrow f g)
    (hgh : FilesGrow g h) : FilesGrow f h :=
  fun p bytes hp => hgh p bytes (hfg p bytes hp)

theorem FilesGrow.update {files : PathBuf → Option Bytes} {p : PathBuf} (h : files p = none)
    (bytes : Bytes) : FilesGrow files (Function.update files p (some bytes)) := by
  intro q old hq
  have hne : q ≠ p := by
    rintro rfl
    rw [h] at hq
    cases hq
  rwa [Function.update_of_ne hne]

def Request.answer : Request → Bytes → Bytes
  | .readBlob, blob => blob
  | .readRange offset size, blob => (blob.drop offset).take size

/-- All positioned reads of a move deliver everything up to the end of the file. -/
def FullReads : Move → Prop
  | .act _ (.read reads) => reads.Full
  | _ => True

section Integrity

variable [Sha256] {root : PathBuf}

variable (root) in
/-- The files at final paths hold what the paths name. -/
def Verified (files : PathBuf → Option Bytes) : Prop :=
  ∀ (d : Digest) bytes, files (path root d) = some bytes → d.Names bytes

variable (root) in
/-- The pending blob of a call is consistent and meant for its digest. -/
def Call.PendingSound (call : Call) : Prop :=
  ∀ pending, call.phase.pending = some pending → pending.Consistent ∧
    pending.expected = call.digest ∧ pending.destination = path root call.digest

omit [Sha256] in
theorem Call.pendingSound_of_none {call : Call} (h : call.phase.pending = none) :
    call.PendingSound root := by
  intro pending hpending
  rw [h] at hpending
  cases hpending

omit [Sha256] in
theorem Call.PendingSound.streaming {call : Call} (h : call.PendingSound root) {lock : ℕ}
    {pending : PendingBlob} (hphase : call.phase = .streaming lock pending) :
    pending.Consistent ∧ pending.expected = call.digest ∧
      pending.destination = path root call.digest :=
  h pending (by rw [hphase]; rfl)

omit [Sha256] in
theorem Call.PendingSound.admitting {call : Call} (h : call.PendingSound root) {lock : ℕ}
    {pending : PendingBlob} (hphase : call.phase = .admitting lock pending) :
    pending.Consistent ∧ pending.expected = call.digest ∧
      pending.destination = path root call.digest :=
  h pending (by rw [hphase]; rfl)

omit [Sha256] in
theorem Call.pendingSound_ensure (call : Call) (result : Except SessionError Bool) :
    (call.ensure result).PendingSound root := by
  refine Call.pendingSound_of_none ?_
  cases result <;> rfl

omit [Sha256] in
theorem Call.pendingSound_of_pending {call : Call} {phase : Phase} {pending : PendingBlob}
    (hphase : phase.pending = some pending) (h : pending.Consistent)
    (hexpected : pending.expected = call.digest)
    (hdestination : pending.destination = path root call.digest) :
    (call.goto phase).PendingSound root := by
  intro other hother
  rw [Call.goto, hphase, Option.some.injEq] at hother
  exact hother ▸ ⟨h, hexpected, hdestination⟩

theorem Advances.pendingSound {index : ℕ} {action : Action} {shared shared' : Shared}
    {call call' : Call} (hadvance : Advances root index action shared call shared' call')
    (h : call.PendingSound root) : call'.PendingSound root := by
  cases hadvance with
  | hit => exact Call.pendingSound_ensure call _
  | coordinateFailed => exact Call.pendingSound_ensure call _
  | release => exact Call.pendingSound_ensure call _
  | releaseFailed => exact Call.pendingSound_ensure call _
  | depart => exact Call.pendingSound_ensure call _
  | startPending lock hphase =>
      exact Call.pendingSound_of_pending rfl (PendingBlob.new_consistent _ _) rfl rfl
  | write lock pending bytes file hphase hfile =>
      obtain ⟨hconsistent, hexpected, hdestination⟩ := h.streaming hphase
      obtain ⟨hexpected', hdestination'⟩ := pending.write_kept bytes file
      exact Call.pendingSound_of_pending rfl (hconsistent.write bytes file hfile)
        (hexpected'.trans hexpected) (hdestination'.trans hdestination)
  | finish lock pending hphase =>
      obtain ⟨hconsistent, hexpected, hdestination⟩ := h.streaming hphase
      exact Call.pendingSound_of_pending rfl hconsistent hexpected hdestination
  | _ => exact Call.pendingSound_of_none rfl

/-- A step keeps the files verified and changes none of them. -/
theorem Advances.files {index : ℕ} {action : Action} {shared shared' : Shared}
    {call call' : Call} (hadvance : Advances root index action shared call shared' call')
    (h : call.PendingSound root) (hverified : Verified root shared.files) :
    Verified root shared'.files ∧ FilesGrow shared.files shared'.files := by
  have hkept : ∀ {files : PathBuf → Option Bytes}, files = shared.files →
      Verified root files ∧ FilesGrow shared.files files := by
    rintro _ rfl
    exact ⟨hverified, .refl _⟩
  cases hadvance with
  | persist lock pending hphase hverify habsent =>
      obtain ⟨hconsistent, hexpected, hdestination⟩ := h.admitting hphase
      refine ⟨?_, .update habsent _⟩
      intro d bytes hbytes
      dsimp only at hbytes
      by_cases hd : path root d = pending.destination
      · rw [hd, Function.update_self, Option.some.injEq] at hbytes
        have hdigest : pending.expected = d :=
          hexpected.trans (path_injective root (hd.trans hdestination)).symm
        obtain ⟨-, hnames⟩ | ⟨e, herror, -⟩ := hconsistent.verify_cases
        · rw [← hdigest, ← hbytes]
          exact hnames
        · rw [hverify] at herror
          cases herror
      · rw [Function.update_of_ne hd] at hbytes
        exact hverified d bytes hbytes
  | acquire lock _ hphase hacquire => exact hkept (acquire_files hacquire)
  | release lock result _ hphase hrelease => exact hkept (release_files hrelease)
  | leave lock _ hphase hrelease => exact hkept (release_files hrelease)
  | _ => exact hkept rfl

/-! ### Every interleaving -/

variable (root) in
/-- The files are verified and so is everything on its way to them. -/
structure Sound (state : State) : Prop where
  verified : Verified root state.shared.files
  pending : ∀ (i : ℕ) call, state.threads[i]? = some call → call.PendingSound root

theorem sound_start {files : PathBuf → Option Bytes} (h : Verified root files) :
    Sound root (start files) :=
  ⟨h, fun i call hcall => by simp [start] at hcall⟩

theorem Sound.step {state state' : State} {move : Move} (h : Sound root state)
    (hstep : step root state move = some state') :
    Sound root state' ∧ FilesGrow state.shared.files state'.shared.files := by
  obtain ⟨arguments, -, rfl⟩ | ⟨i, action, call, shared', call', -, hcall, hact, rfl⟩ :=
    Pool.step_cases hstep
  · refine ⟨⟨h.verified, ?_⟩, .refl _⟩
    intro j other hother
    obtain hold | rfl := Pool.getElem?_append_cases hother
    · exact h.pending j other hold
    · exact Call.pendingSound_of_none rfl
  · have hadvance := advance_advances hact
    obtain ⟨hverified, hgrow⟩ := hadvance.files (h.pending i call hcall) h.verified
    refine ⟨⟨hverified, ?_⟩, hgrow⟩
    intro j other hother
    obtain ⟨-, rfl⟩ | ⟨-, hold⟩ := Pool.getElem?_set_cases hother
    · exact hadvance.pendingSound (h.pending i call hcall)
    · exact h.pending j other hold

/-! ### What calls return -/

variable (root) in
/-- Bytes a call has returned are those it was asked for, of the admitted blob. -/
def Call.Served (files : PathBuf → Option Bytes) (call : Call) : Prop :=
  ∀ bytes downloaded, call.phase = .returned (.ok (bytes, downloaded)) →
    ∃ blob, files (path root call.digest) = some blob ∧ bytes = call.request.answer blob

omit [Sha256] in
theorem readFileRange_eq_ok {files : PathBuf → Option Bytes} {p : PathBuf} {offset size : ℕ}
    {reads : FileReads} (hfull : reads.Full) {bytes : Bytes}
    (h : readFileRange files p offset size reads = .ok bytes) :
    ∃ blob, files p = some blob ∧ bytes = (blob.drop offset).take size := by
  unfold readFileRange at h
  split at h
  · cases h
  · cases h
  · next blob _ hblob =>
      split at h
      · cases h
      · dsimp only at h
        split at h
        · cases h
        · next count hcount =>
            cases h
            refine ⟨blob, hblob, ?_⟩
            rw [hfull count hcount, List.take_take, Nat.min_self, ← List.length_drop,
              Nat.min_comm, ← List.take_eq_take_min]

omit [Sha256] in
theorem readCachedBlob_eq_ok {files : PathBuf → Option Bytes} {digest : Digest}
    {reads : FileReads} {bytes : Bytes}
    (h : readCachedBlob root files digest reads = .ok bytes) :
    files (path root digest) = some bytes := by
  unfold readCachedBlob at h
  split at h
  · cases h
  · next blob hblob =>
      split at h
      · cases h
      · cases h
        exact hblob

omit [Sha256] in
theorem serve_eq_ok {shared : Shared} {call : Call} {downloaded downloaded' : Bool}
    {reads : FileReads} (hfull : reads.Full) {bytes : Bytes}
    (h : serve root shared call downloaded reads = .ok (bytes, downloaded')) :
    ∃ blob, shared.files (path root call.digest) = some blob ∧
      bytes = call.request.answer blob := by
  obtain ⟨read, hread, h⟩ := (Result.bind_eq_ok_iff _ _ _).mp h
  cases h
  rw [readAdmitted] at hread
  cases hrequest : call.request with
  | readBlob =>
      rw [hrequest] at hread
      exact ⟨bytes, readCachedBlob_eq_ok hread, rfl⟩
  | readRange offset size =>
      rw [hrequest] at hread
      exact readFileRange_eq_ok hfull hread

theorem Advances.served {index : ℕ} {action : Action} {shared shared' : Shared}
    {call call' : Call} (hadvance : Advances root index action shared call shared' call')
    (hfull : ∀ reads, action = .read reads → reads.Full) :
    call'.Served root shared'.files := by
  intro bytes downloaded hphase
  cases hadvance with
  | read _ reads _ haction =>
      rw [Call.goto, Phase.returned.injEq] at hphase
      exact serve_eq_ok (hfull reads haction) hphase
  | release lock result shared' _ _ =>
      cases result <;> cases hphase
  | _ => cases hphase

theorem served_step {state state' : State} {move : Move} (hsound : Sound root state)
    (h : ∀ (i : ℕ) call, state.threads[i]? = some call → call.Served root state.shared.files)
    (hfull : FullReads move) (hstep : step root state move = some state') :
    ∀ (i : ℕ) call, state'.threads[i]? = some call →
      call.Served root state'.shared.files := by
  have hgrow := (hsound.step hstep).2
  have hkept : ∀ (i : ℕ) call, state.threads[i]? = some call →
      call.Served root state'.shared.files := by
    intro i call hcall bytes downloaded hphase
    obtain ⟨blob, hblob, hbytes⟩ := h i call hcall bytes downloaded hphase
    exact ⟨blob, hgrow _ _ hblob, hbytes⟩
  obtain ⟨arguments, -, rfl⟩ | ⟨i, action, call, shared', call', rfl, hcall, hact, rfl⟩ :=
    Pool.step_cases hstep
  · intro j other hother
    obtain hold | rfl := Pool.getElem?_append_cases hother
    · exact hkept j other hold
    · intro bytes downloaded hphase
      cases hphase
  · intro j other hother
    obtain ⟨-, rfl⟩ | ⟨-, hold⟩ := Pool.getElem?_set_cases hother
    · refine (advance_advances hact).served ?_
      rintro reads rfl
      exact hfull
    · exact hkept j other hold

/-! ### Integrity -/

variable (root) in
/-- The files at final paths hold the bytes their digests name, and every result is
the blob of its digest or the range of it that was asked for. -/
structure Intact (state : State) : Prop where
  verified : ∀ (d : Digest) bytes, state.shared.files (path root d) = some bytes →
    hexEncode (Sha256.digest bytes).toList = d.hash ∧ bytes.length = d.sizeBytes
  read_blob : ∀ call ∈ state.threads, ∀ bytes downloaded, call.request = .readBlob →
    call.phase = .returned (.ok (bytes, downloaded)) →
      state.shared.files (path root call.digest) = some bytes ∧ call.digest.Names bytes
  read_range : ∀ call ∈ state.threads, ∀ offset size bytes downloaded,
    call.request = .readRange offset size →
    call.phase = .returned (.ok (bytes, downloaded)) →
      ∃ blob, state.shared.files (path root call.digest) = some blob ∧
        call.digest.Names blob ∧ bytes = (blob.drop offset).take size

theorem intact_of_served {state : State} (hsound : Sound root state)
    (h : ∀ (i : ℕ) call, state.threads[i]? = some call →
      call.Served root state.shared.files) : Intact root state := by
  refine ⟨hsound.verified, ?_, ?_⟩
  · intro call hcall bytes downloaded hrequest hphase
    obtain ⟨i, hi⟩ := List.mem_iff_getElem?.mp hcall
    obtain ⟨blob, hblob, hbytes⟩ := h i call hi bytes downloaded hphase
    rw [hrequest, Request.answer] at hbytes
    rw [hbytes]
    exact ⟨hblob, hsound.verified _ _ hblob⟩
  · intro call hcall offset size bytes downloaded hrequest hphase
    obtain ⟨i, hi⟩ := List.mem_iff_getElem?.mp hcall
    obtain ⟨blob, hblob, hbytes⟩ := h i call hi bytes downloaded hphase
    rw [hrequest, Request.answer] at hbytes
    exact ⟨blob, hblob, hsound.verified _ _ hblob, hbytes⟩

/-- In every reachable state of every interleaving the files at final paths are what
their paths name, every successful read returned them, and no later step changes
one. -/
theorem cache_integrity (root : PathBuf) (files : PathBuf → Option Bytes)
    (moves later : List Move) (state state' : State) (hfiles : Verified root files)
    (hfull : ∀ move ∈ moves, FullReads move)
    (hrun : Transition.run (step root) (start files) moves = some state)
    (hlater : Transition.run (step root) state later = some state') :
    Intact root state ∧
      ∀ p bytes, state.shared.files p = some bytes → state'.shared.files p = some bytes := by
  have hserved : Sound root state ∧ ∀ (i : ℕ) call, state.threads[i]? = some call →
      call.Served root state.shared.files := by
    have hkept : ∀ s move s', FullReads move →
        (Sound root s ∧ ∀ (i : ℕ) call, s.threads[i]? = some call →
          call.Served root s.shared.files) → step root s move = some s' →
        Sound root s' ∧ ∀ (i : ℕ) call, s'.threads[i]? = some call →
          call.Served root s'.shared.files := by
      intro s move s' hmove h hstep
      exact ⟨(h.1.step hstep).1, served_step h.1 h.2 hmove hstep⟩
    refine Transition.run_invariant_of_mem hkept moves (start files) state hfull ?_ hrun
    exact ⟨sound_start hfiles, fun i call hcall => by simp [start] at hcall⟩
  refine ⟨intact_of_served hserved.1 hserved.2, ?_⟩
  have hsound : ∀ s move s', Sound root s → step root s move = some s' → Sound root s' :=
    fun s move s' h hstep => (h.step hstep).1
  have hgrow : ∀ s move s', Sound root s → step root s move = some s' →
      FilesGrow s.shared.files s'.shared.files :=
    fun s move s' h hstep => (h.step hstep).2
  exact Transition.run_rel (R := fun s s' => FilesGrow s.shared.files s'.shared.files)
    (fun s => .refl s.shared.files)
    (fun s t u (h : FilesGrow s.shared.files t.shared.files) h' => h.trans h') hsound hgrow
    later state state' hserved.1 hlater

end Integrity

namespace Sample

@[reducible] def sha256 : Sha256 :=
  Digest.Sample.sha256

def digest : Digest :=
  Digest.Sample.contentDigest

def reads : FileReads where
  openError := none
  inspectError := none
  readAt := .ok id

/-- Two calls for one digest. The first fills the cache with a short write while the
second waits at the gate. -/
def moves : List Move :=
  [.spawn (digest, .readBlob), .spawn (digest, .readRange 1 5), .act 0 .check, .act 1 .check,
    .act 0 .acquire, .act 1 .acquire, .act 0 .enterGate, .act 0 .recheck,
    .act 0 (.startPendingBlob none), .act 0 (.write [104, 105] (.ok 1)),
    .act 0 (.write [105] (.ok 1)), .act 0 (.finishStream none), .act 0 (.admitPendingBlob none),
    .act 0 .unlock, .act 1 .enterGate, .act 1 .recheck, .act 1 .unlock, .act 1 .release,
    .act 0 .release, .act 0 (.read reads), .act 1 (.read reads)]

theorem moves_ensured :
    letI : Sha256 := sha256
    (Transition.run (step []) (start fun _ => none) moves).map
      (fun state => state.threads.map fun call => call.ensured) =
        some [some (.ok true), some (.ok false)] := by
  decide +kernel

theorem reads_full : reads.Full := by
  intro count hcount n
  cases hcount
  rfl

theorem moves_full : ∀ move ∈ moves, FullReads move := by
  simp only [moves, List.forall_mem_cons, FullReads, reads_full, true_and]
  simp

end Sample

theorem cache_integrity_sample :
    letI : Sha256 := Sample.sha256
    ∃ state, Transition.run (step []) (start fun _ => none) Sample.moves = some state ∧
      state.threads.map (fun call => call.ensured) = [some (.ok true), some (.ok false)] ∧
      Intact [] state := by
  let _ : Sha256 := Sample.sha256
  obtain ⟨state, hrun, hstate⟩ := Option.map_eq_some_iff.mp Sample.moves_ensured
  refine ⟨state, hrun, hstate, ?_⟩
  refine (cache_integrity [] (fun _ => none) Sample.moves [] state state ?_
    Sample.moves_full hrun rfl).1
  intro d bytes hbytes
  cases hbytes

end Cache

end Session

end RemoteFs
