import RemoteFs.Session.Retained
import RemoteFs.Session.Serving

/-!
# Loaded directories stay readable

A call that has passed the load of its directory leaves the directory `Settled`: it is loaded,
and no call that holds its lock waits for the cache. Only such a call could poison the lock, so
the lock stays sound, and from then on every call on the directory goes straight to the store.
-/

namespace RemoteFs

namespace Session

/-! ### What loads have read -/

section Reads

variable [Uuid] {env : Surroundings} {session : Session} {ns : Namespace} {inode : InodeId}

theorem isLoadedAt_of_digestToLoad (h : session.store.database.Holds ns)
    (hdigest : digestToLoad env session inode = .ok none) : ns.IsLoadedAt inode := by
  obtain ⟨stored, hvisible, hdigest⟩ := (Result.bind_eq_ok_iff _ _ _).mp hdigest
  obtain ⟨n, hfind, rfl⟩ := visible_of_holds h hvisible
  obtain ⟨hn, hid⟩ := (ns.find_eq_some_iff inode n).mp hfind
  by_cases hkind : n.inode.kind = .directory
  · by_cases hloaded : n.inode.directoryLoaded = some true
    · exact ⟨n, hn, hid, hkind, (inode_directoryLoaded_eq_iff n hkind).mp hloaded⟩
    · obtain ⟨digest, hcontent⟩ := content_of_kind hkind
      rw [if_neg (not_not.mpr hkind), if_neg hloaded,
        inode_directoryRemoteDigest hcontent] at hdigest
      cases hdigest
  · rw [if_pos hkind] at hdigest
    cases hdigest

theorem digestToLoad_of_isLoadedAt (h : session.store.database.Holds ns)
    (hactive : session.store.database.Active) (hquiet : env.inodeSqlite.Quiet)
    (hloaded : ns.IsLoadedAt inode) : digestToLoad env session inode = .ok none := by
  obtain ⟨p, hp, hid, hkind, hloaded⟩ := hloaded
  have hfind : ns.find inode = some p := (ns.find_eq_some_iff inode p).mpr ⟨hp, hid⟩
  have hdirectory : ¬ p.inode.kind ≠ .directory := not_not.mpr hkind
  rw [digestToLoad, getVisibleInode_of_find h hactive hquiet hfind, Result.ok_bind,
    if_neg hdirectory, if_pos ((inode_directoryLoaded_eq_iff p hkind).mpr hloaded)]

theorem backing_ne_ok_of_isLoadedAt (h : session.store.database.Holds ns)
    (hloaded : ns.IsLoadedAt inode) (found : Backing) : backing env session inode ≠ .ok found := by
  intro hbacking
  obtain ⟨n, hn, hid, digest, hcontent, -⟩ := backing_of_holds h hbacking
  obtain ⟨p, hp, hpid, hkind, -⟩ := hloaded
  rw [ns.eq_of_id_eq hp hn (hpid.trans hid.symm), hcontent] at hkind
  cases hkind

end Reads

namespace System

/-- The phases of a call on a directory after the directory has been loaded. -/
def Phase.pastLoad : Phase → Bool
  | .created _ => true
  | .loaded => true
  | .returned (.ok _) => true
  | _ => false

/-- A directory that is loaded, whose lock no call can poison any more. -/
structure Settled (s : State) (ns : Namespace) (directory : InodeId) : Prop where
  loaded : ns.IsLoadedAt directory
  unpoisoned : s.poisoned directory = false
  unawaited : ∀ task ∈ s.tasks, task.request.guarded = some directory →
    task.phase.awaited = none

section Settled

variable [Uuid] [Sha256] [Prost] {env : Surroundings} {clock : ℤ} {session : Session}
  {cache : Cache.State} {request : Request} {phase : Phase} {outcome : Outcome}

theorem pastLoad_of_load {inode : InodeId} {answer : Answer}
    (h : load env session cache inode phase = some outcome) :
    outcome.phase ≠ .returned (.ok answer) := by
  intro hphase
  cases phase with
  | locked =>
      rw [load] at h
      split at h
      all_goals
        cases h
        cases hphase
  | fetching digest call =>
      rw [load] at h
      split at h
      · cases h
        cases hphase
      · split at h
        all_goals
          cases h
          cases hphase
      · cases h
        cases hphase
      · cases h
  | fetched children downloaded =>
      rw [load] at h
      split at h
      all_goals
        cases h
        cases hphase
  | created downloaded =>
      cases h
      cases hphase
  | _ => cases h

/-- A call on a directory that answers has loaded it. -/
theorem loaded_of_answer {inode : InodeId} {answer : Answer}
    (hinode : request.directory = some inode)
    (h : advance env clock session cache request phase = some outcome)
    (hphase : outcome.phase = .returned (.ok answer)) : phase = .loaded := by
  by_contra hne
  rw [advance_eq_load hinode hne] at h
  exact pastLoad_of_load h hphase

omit [Sha256] [Prost] in
theorem Advances.awaited_eq_none {ns : Namespace} {directory : InodeId}
    (h : Advances env clock session cache request phase outcome)
    (hholds : session.store.database.Holds ns) (hloaded : ns.IsLoadedAt directory)
    (hguarded : request.guarded = some directory) : outcome.phase.awaited = none := by
  cases h with
  | requested _ inode hinode digest hdigest =>
      rw [guarded_of_directory hinode, Option.some.injEq] at hguarded
      subst hguarded
      exact absurd hloaded (not_isLoadedAt_of_digestToLoad hholds hdigest)
  | asked inode offset size digest hbacking =>
      cases hguarded
      exact absurd hbacking (backing_ne_ok_of_isLoadedAt hholds hloaded _)
  | _ => rfl

variable {root : PathBuf} {s s' : State} {ns ns' : Namespace} {directory : InodeId}

/-- A settled directory stays settled. -/
theorem Settled.step (h : Settled s ns directory) (hholds : s.session.store.database.Holds ns)
    (hextends : ns.Extends ns') (hstep : Steps root s s') : Settled s' ns' directory := by
  have hloaded := hextends.isLoadedAt h.loaded
  cases hstep with
  | call request =>
      refine ⟨hloaded, h.unpoisoned, fun task htask hguarded => ?_⟩
      obtain hold | hnew := List.mem_append.mp htask
      · exact h.unawaited task hold hguarded
      · rw [List.mem_singleton.mp hnew]
        rfl
  | lock i request inode hi hinode =>
      refine ⟨hloaded, h.unpoisoned, fun task htask hguarded => ?_⟩
      obtain hold | rfl := List.mem_or_eq_of_mem_set htask
      · exact h.unawaited task hold hguarded
      · rfl
  | refused i request inode hi hinode =>
      refine ⟨hloaded, h.unpoisoned, fun task htask hguarded => ?_⟩
      obtain hold | rfl := List.mem_or_eq_of_mem_set htask
      · exact h.unawaited task hold hguarded
      · rfl
  | proceed i env clock request phase outcome hi hadvance =>
      have hadvances := advances_of_advance hadvance
      refine ⟨hloaded, ?_, fun task htask hguarded => ?_⟩
      · -- a call that panics was waiting for the cache
        have hsafe : outcome.poisons = true → request.guarded ≠ some directory := by
          intro hpoisons hguarded
          obtain ⟨-, call, hcall⟩ := hadvances.of_poisons hpoisons
          have hnone := h.unawaited _ (List.mem_of_getElem? hi) hguarded
          dsimp only at hnone
          rw [hcall] at hnone
          cases hnone
        simpa [poison, h.unpoisoned] using hsafe
      · obtain hold | rfl := List.mem_or_eq_of_mem_set htask
        · exact h.unawaited task hold hguarded
        · exact hadvances.awaited_eq_none hholds h.loaded hguarded
  | cache => exact ⟨hloaded, h.unpoisoned, h.unawaited⟩

omit [Uuid] [Sha256] [Prost] in
/-- A loaded directory whose lock a call holds that waits for nothing is settled. -/
theorem settled_of_holding {root : PathBuf} {initial : PathBuf → Option Bytes}
    (horderly : Orderly root initial s) (hloaded : ns.IsLoadedAt directory) {i : ℕ}
    (hi : s.tasks[i]? = some ⟨request, phase⟩) (hguarded : request.guarded = some directory)
    (hguarding : phase.guarding = true) (hunpoisoned : s.poisoned directory = false)
    {session : Session} {cache : Cache.State} {phase' : Phase}
    (hphase' : phase'.awaited = none) :
    Settled { session := session, cache := cache,
              poisoned := poison s.poisoned request false,
              tasks := s.tasks.set i ⟨request, phase'⟩ } ns directory where
  loaded := hloaded
  unpoisoned := by simp [poison, hunpoisoned]
  unawaited := by
    intro task htask htaskGuarded
    obtain ⟨j, hj⟩ := List.mem_iff_getElem?.mp htask
    obtain ⟨-, rfl⟩ | ⟨hne, hold⟩ := Pool.getElem?_set_cases hj
    · exact hphase'
    · -- a call that waits for the cache holds its lock, which is taken
      cases hawaited : task.phase.awaited with
      | none => rfl
      | some call =>
          have hheld : task.holds directory = true :=
            decide_eq_true ⟨htaskGuarded, guarding_of_awaited hawaited⟩
          have hholds : Task.holds directory ⟨request, phase⟩ = true :=
            decide_eq_true ⟨hguarded, hguarding⟩
          exact absurd (Pool.eq_of_countP_le_one (horderly.exclusive directory) hold hi hheld
            hholds) hne

end Settled

end System

end Session

end RemoteFs
