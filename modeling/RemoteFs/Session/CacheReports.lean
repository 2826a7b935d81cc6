import Mathlib.Data.List.Dedup
import Mathlib.Data.List.Perm.Subperm
import RemoteFs.Session.SingleFlight

/-!
# Reports of the cache

A call that returns bytes with the report of a download is the call that filled the cache for
its digest, so there are at most as many such calls as digests that were admitted.
-/

namespace RemoteFs

namespace Session

namespace Cache

def Call.downloaded (call : Call) : Bool :=
  match call.phase with
  | .returned (.ok (_, downloaded)) => downloaded
  | _ => false

/-- What a call reports about its download is what `ensure_cached` returned to it. -/
structure Call.Told (call : Call) : Prop where
  reading : ∀ downloaded, call.phase = .reading downloaded →
    call.ensured = some (.ok downloaded)
  returned : ∀ bytes downloaded, call.phase = .returned (.ok (bytes, downloaded)) →
    call.ensured = some (.ok downloaded)

theorem Call.told_ensure (call : Call) (result : Except SessionError Bool) :
    (call.ensure result).Told := by
  cases result with
  | error e =>
      refine ⟨fun d h => ?_, fun bytes d h => ?_⟩
      · cases h
      · cases h
  | ok downloaded =>
      refine ⟨fun d h => ?_, fun bytes d h => ?_⟩
      · cases h
        rfl
      · cases h

theorem Call.told_begin (arguments : Digest × Request) : (Call.begin arguments).Told := by
  refine ⟨fun d h => ?_, fun bytes d h => ?_⟩
  · cases h
  · cases h

section Steps

variable [Sha256] {root : PathBuf} {index : ℕ} {action : Action} {shared shared' : Shared}
  {call call' : Call}

theorem Advances.told (h : Advances root index action shared call shared' call')
    (htold : call.Told) : call'.Told := by
  cases h with
  | hit => exact call.told_ensure _
  | coordinateFailed e => exact call.told_ensure _
  | release lock result => exact call.told_ensure _
  | releaseFailed lock result e => exact call.told_ensure _
  | depart lock e => exact call.told_ensure _
  | read downloaded reads hphase =>
      refine ⟨fun _ h => ?_, fun bytes downloaded' h => ?_⟩
      · cases h
      · rw [Call.goto, Phase.returned.injEq] at h
        obtain ⟨read, -, hread⟩ := (Result.bind_eq_ok_iff _ _ _).mp h
        cases hread
        exact htold.reading _ hphase
  | _ =>
      constructor
      · intro downloaded hphase
        cases hphase
      · intro bytes downloaded hphase
        cases hphase

theorem advance_of_returned {result : Except SessionError (Bytes × Bool)}
    (hphase : call.phase = .returned result) :
    advance root index action shared call = none := by
  cases action <;> simp only [advance, hphase]

theorem not_downloaded_of_advance
    (h : advance root index action shared call = some (shared', call')) :
    call.downloaded = false := by
  unfold Call.downloaded
  split
  · next hphase =>
      rw [advance_of_returned hphase] at h
      cases h
  · rfl

end Steps

/-! ### Runs -/

structure Reporting (root : PathBuf) (initial : PathBuf → Option Bytes) (state : State) :
    Prop where
  locks : Coordinated state
  filled : Filled root initial state
  told : ∀ (i : ℕ) call, state.threads[i]? = some call → call.Told

theorem reporting_start (root : PathBuf) (files : PathBuf → Option Bytes) :
    Reporting root files (start files) where
  locks := coordinated_start files
  filled := filled_start root files
  told := by
    intro i call hcall
    simp [start] at hcall

theorem Reporting.step [Sha256] {root : PathBuf} {initial : PathBuf → Option Bytes}
    {state state' : State} {move : Move} (h : Reporting root initial state)
    (hstep : step root state move = some state') : Reporting root initial state' where
  locks := h.locks.step hstep
  filled := h.filled.step h.locks hstep
  told := by
    obtain ⟨arguments, -, rfl⟩ | ⟨i, action, call, shared', call', -, hcall, hact, rfl⟩ :=
      Pool.step_cases hstep
    · intro j other hother
      obtain hold | rfl := Pool.getElem?_append_cases hother
      · exact h.told j other hold
      · exact Call.told_begin arguments
    · intro j other hother
      obtain ⟨-, rfl⟩ | ⟨-, hold⟩ := Pool.getElem?_set_cases hother
      · exact (advance_advances hact).told (h.told i call hcall)
      · exact h.told j other hold

def admittedDigests (state : State) : List Digest :=
  ((state.threads.filter Call.admitted).map Call.digest).dedup

theorem mem_admittedDigests_iff (state : State) (digest : Digest) :
    digest ∈ admittedDigests state ↔ 0 < state.threads.countP (Call.createdEntry digest) := by
  rw [admittedDigests, List.mem_dedup, List.mem_map, List.countP_pos_iff]
  simp only [List.mem_filter, Call.createdEntry, decide_eq_true_eq]
  constructor
  · rintro ⟨call, ⟨hcall, hadmitted⟩, hdigest⟩
    exact ⟨call, hcall, hdigest, hadmitted⟩
  · rintro ⟨call, hcall, hdigest, hadmitted⟩
    exact ⟨call, ⟨hcall, hadmitted⟩, hdigest⟩

theorem Call.Told.reportsDownload {call : Call} (h : call.Told)
    (hdownloaded : call.downloaded = true) : call.reportsDownload call.digest = true := by
  unfold Call.downloaded at hdownloaded
  split at hdownloaded
  · next bytes downloaded hphase =>
      subst hdownloaded
      have hensured := h.returned bytes true hphase
      simp [Call.reportsDownload, Call.outcome, hphase, hensured]
  · cases hdownloaded

/-- The downloads reported are of different digests, each of which was admitted. -/
theorem Reporting.downloaded_le {root : PathBuf} {initial : PathBuf → Option Bytes}
    {state : State} (h : Reporting root initial state) :
    state.threads.countP Call.downloaded ≤ (admittedDigests state).length := by
  have hreports : ∀ call ∈ state.threads, call.downloaded = true →
      call.reportsDownload call.digest = true := by
    intro call hcall hdownloaded
    obtain ⟨i, hi⟩ := List.mem_iff_getElem?.mp hcall
    exact (h.told i call hi).reportsDownload hdownloaded
  have hnodup : ((state.threads.filter Call.downloaded).map Call.digest).Nodup := by
    refine List.nodup_iff_count_le_one.mpr fun digest => ?_
    rw [List.count, List.countP_map, List.countP_filter]
    calc state.threads.countP (fun call =>
            ((fun d => d == digest) ∘ Call.digest) call && call.downloaded)
        ≤ state.threads.countP (Call.reportsDownload digest) := by
          refine List.countP_mono_left fun call hcall hboth => ?_
          obtain ⟨hdigest, hdownloaded⟩ := Bool.and_eq_true_iff.mp hboth
          have hdigest : call.digest = digest := by simpa using hdigest
          exact hdigest ▸ hreports call hcall hdownloaded
      _ ≤ 1 := by
          rw [h.filled.reported digest]
          split <;> omega
  have hsubset : (state.threads.filter Call.downloaded).map Call.digest ⊆
      admittedDigests state := by
    intro digest hdigest
    obtain ⟨call, hcall, rfl⟩ := List.mem_map.mp hdigest
    obtain ⟨hcall, hdownloaded⟩ := List.mem_filter.mp hcall
    have hcount : 0 < state.threads.countP (Call.reportsDownload call.digest) :=
      List.countP_pos_iff.mpr ⟨call, hcall, hreports call hcall hdownloaded⟩
    rw [mem_admittedDigests_iff, h.filled.created, ← h.filled.reported]
    exact hcount
  have hlength := (List.subperm_of_subset hnodup hsubset).length_le
  rwa [List.length_map, ← List.countP_eq_length_filter] at hlength

end Cache

end Session

end RemoteFs
