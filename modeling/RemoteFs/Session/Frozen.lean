import RemoteFs.Session.CacheProgress
import RemoteFs.Session.Retained

/-!
# A closed session is frozen

Every store call checks the lifecycle inside its own transaction or read, so a load that read
its inode before the session was closed fails when it reaches the store afterwards. Once the
session is closed no call changes the database, and a call that is made then fails (`Late`): at
the store, or at the lock of its inode when a call that panicked has poisoned that.

Such a call can also return. What holds the lock it waits for is brought to its end step by
step, and the calls of the cache come to theirs by `Cache.canFinish`.
-/

namespace RemoteFs

namespace Session

namespace System

def Move.Undisturbed : Move → Prop
  | .call _ => True
  | .lock _ => True
  | .proceed _ env clock =>
      (env.inodeSqlite.Quiet ∧ env.loadSqlite.Quiet ∧ env.readSqlite.Quiet) ∧
        0 ≤ clock ∧ clock ≤ i64Max
  | .cache _ _ => True

/-- A call that held the lock of the inode has panicked. -/
def State.PanickedOn (s : State) (inode : InodeId) : Prop :=
  ∃ task ∈ s.tasks, task.request.guarded = some inode ∧ task.phase = .panicked

def Refuses (s : State) (request : Request) (e : SessionError) : Prop :=
  (∃ reason, e.root = failedPrecondition reason) ∨
    ∃ inode, request.guarded = some inode ∧ s.PanickedOn inode ∧ e = poisonedLock inode request

/-- A call that was made after the close: it waits, or has failed. -/
def Late (undisturbed : Prop) (s : State) (task : Task) : Prop :=
  task.phase = .called ∨ (task.phase = .locked ∧ task.request.guarded.isSome) ∨
    ∃ e, task.phase = .returned (.error e) ∧ (undisturbed → Refuses s task.request e)

theorem State.PanickedOn.set {s : State} {inode : InodeId} (h : s.PanickedOn inode) {i : ℕ}
    {task : Task} (hi : s.tasks[i]? = some task) (hphase : task.phase ≠ .panicked) (task' : Task) :
    ∃ other ∈ s.tasks.set i task', other.request.guarded = some inode ∧
      other.phase = .panicked := by
  obtain ⟨other, hother, hguarded, hpanicked⟩ := h
  obtain ⟨j, hj⟩ := List.mem_iff_getElem?.mp hother
  refine ⟨other, List.mem_iff_getElem?.mpr ⟨j, ?_⟩, hguarded, hpanicked⟩
  rw [List.getElem?_set_ne, hj]
  rintro rfl
  rw [hi, Option.some.injEq] at hj
  exact hphase (hj ▸ hpanicked)

section Steps

variable [Uuid] [Sha256] [Prost] {root : PathBuf}

theorem finished_of_advance {env : Surroundings} {clock : ℤ} {session : Session}
    {cache : Cache.State} {request : Request} {phase : Phase} {outcome : Outcome}
    (h : advance env clock session cache request phase = some outcome) :
    phase.finished = false := by
  cases phase with
  | returned result => cases request <;> cases h
  | panicked => cases request <;> cases h
  | _ => rfl

theorem State.PanickedOn.step {s s' : State} {inode : InodeId} (h : s.PanickedOn inode)
    (hstep : Steps root s s') : s'.PanickedOn inode := by
  cases hstep with
  | call request =>
      obtain ⟨task, htask, hpanicked⟩ := h
      exact ⟨task, List.mem_append_left _ htask, hpanicked⟩
  | lock i request inode hi => exact h.set hi (fun hphase => by cases hphase) _
  | refused i request inode hi => exact h.set hi (fun hphase => by cases hphase) _
  | proceed i env clock request phase outcome hi hadvance =>
      refine h.set hi (fun hphase => ?_) _
      have hfinished := finished_of_advance hadvance
      dsimp only at hphase
      rw [hphase] at hfinished
      cases hfinished
  | cache => exact h

theorem Refuses.step {s s' : State} {request : Request} {e : SessionError}
    (h : Refuses s request e) (hstep : Steps root s s') : Refuses s' request e := by
  obtain hclosed | ⟨inode, hguarded, hpanicked, rfl⟩ := h
  · exact .inl hclosed
  · exact .inr ⟨inode, hguarded, hpanicked.step hstep, rfl⟩

theorem Late.step {undisturbed : Prop} {s s' : State} {task : Task} (h : Late undisturbed s task)
    (hstep : Steps root s s') : Late undisturbed s' task := by
  obtain hcalled | hlocked | ⟨e, hphase, hcause⟩ := h
  · exact .inl hcalled
  · exact .inr (.inl hlocked)
  · exact .inr (.inr ⟨e, hphase, fun hquiet => (hcause hquiet).step hstep⟩)

/-- A lock that is poisoned was held by a call that panicked. -/
theorem panickedOn_of_poisoned {s s' : State} {inode : InodeId}
    (h : s.poisoned inode = true → s.PanickedOn inode) (hstep : Steps root s s')
    (hpoisoned : s'.poisoned inode = true) : s'.PanickedOn inode := by
  by_cases hbefore : s.poisoned inode = true
  · exact (h hbefore).step hstep
  · cases hstep with
    | proceed i env clock request phase outcome hi hadvance =>
        have hpoisons : outcome.poisons = true ∧ request.guarded = some inode := by
          simpa [poison, hbefore] using hpoisoned
        exact ⟨_, List.mem_iff_getElem?.mpr ⟨i, Pool.getElem?_set_same hi _⟩, hpoisons.2,
          ((advances_of_advance hadvance).of_poisons hpoisons.1).1⟩
    | _ => exact absurd hpoisoned hbefore

end Steps

/-! ### Steps of a closed session -/

section Inactive

variable [Uuid] [Sha256] [Prost] {env : Surroundings} {clock : ℤ} {session : Session}
  {cache : Cache.State} {request : Request} {phase : Phase} {outcome : Outcome} {ns : Namespace}
  (hholds : session.store.database.Holds ns) (hinactive : ¬ session.store.database.Active)

include hholds hinactive

theorem store_of_inactive (h : advance env clock session cache request phase = some outcome) :
    outcome.session.store = session.store := by
  cases advances_of_advance h with
  | rejected _ inode hinode children downloaded e store hcall =>
      obtain ⟨e', hsame⟩ :=
        getOrCreateRemoteDirChildren_of_inactive hholds hinactive env.loadSqlite inode children
      rw [hsame] at hcall
      cases hcall
      rfl
  | created _ inode hinode children downloaded stored store hcall =>
      obtain ⟨e', hsame⟩ :=
        getOrCreateRemoteDirChildren_of_inactive hholds hinactive env.loadSqlite inode children
      rw [hsame] at hcall
      cases hcall
  | closed =>
      obtain ⟨e, hsame, -⟩ := close_of_inactive hholds hinactive env.loadSqlite clock
      dsimp only [Outcome.unpoisoned]
      rw [hsame]
  | _ => rfl

variable (env clock cache) in
theorem advance_locked_of_inactive {inode : InodeId} (hinode : request.guarded = some inode) :
    ∃ e, advance env clock session cache request .locked =
        some (.unpoisoned session cache (.returned (.error e))) ∧
      (env.inodeSqlite.Quiet → ∃ reason, e.root = failedPrecondition reason) := by
  have hload : ∀ inode, ∃ e, load env session cache inode .locked =
        some (.unpoisoned session cache (.returned (.error e))) ∧
      (env.inodeSqlite.Quiet → ∃ reason, e.root = failedPrecondition reason) := by
    intro inode
    obtain ⟨e, herror, hcause⟩ := digestToLoad_of_inactive hholds hinactive env inode
    refine ⟨e, ?_, hcause⟩
    rw [load, herror]
  cases request with
  | getInode | close => cases hinode
  | lookupChild parent name => exact hload parent
  | listDirectory directory => exact hload directory
  | readRange inode offset size =>
      obtain ⟨e, herror, hcause⟩ := backing_of_inactive hholds hinactive env inode
      refine ⟨e, ?_, hcause⟩
      rw [advance, read, herror]

variable (env clock cache) in
theorem advance_called_of_inactive (hnone : request.guarded = none) :
    ∃ e, advance env clock session cache request .called =
        some (.unpoisoned session cache (.returned (.error e))) ∧
      (Move.Undisturbed (.proceed 0 env clock) → ∃ reason, e.root = failedPrecondition reason) := by
  cases request with
  | getInode inode =>
      obtain ⟨e, herror, hcause⟩ := getVisibleInode_of_inactive hholds hinactive env inode
      refine ⟨e, ?_, fun hquiet => hcause hquiet.1.1⟩
      rw [advance, getInode, herror]
      rfl
  | close =>
      obtain ⟨e, hcall, hcause⟩ := close_of_inactive hholds hinactive env.loadSqlite clock
      refine ⟨e, ?_, fun hquiet => hcause hquiet.1.2.1 hquiet.2⟩
      rw [advance_close, hcall]
      rfl
  | lookupChild | listDirectory | readRange => cases hnone

theorem late_of_advance {undisturbed : Prop} {s s' : State}
    (hundisturbed : undisturbed → Move.Undisturbed (.proceed 0 env clock))
    (hlate : Late undisturbed s ⟨request, phase⟩)
    (h : advance env clock session cache request phase = some outcome) :
    Late undisturbed s' ⟨request, outcome.phase⟩ := by
  obtain hphase | ⟨hphase, hguarded⟩ | ⟨e, hphase, -⟩ := hlate
  · dsimp only at hphase
    subst hphase
    cases hinode : request.guarded with
    | none =>
        obtain ⟨e, hfails, hcause⟩ := advance_called_of_inactive env clock cache hholds hinactive
          hinode
        rw [hfails, Option.some.injEq] at h
        subst h
        exact .inr (.inr ⟨e, rfl, fun hquiet => .inl (hcause (hundisturbed hquiet))⟩)
    | some inode =>
        cases request with
        | getInode | close => cases hinode
        | lookupChild | listDirectory | readRange => cases h
  · dsimp only at hphase
    subst hphase
    obtain ⟨inode, hinode⟩ := Option.isSome_iff_exists.mp hguarded
    obtain ⟨e, hfails, hcause⟩ := advance_locked_of_inactive env clock cache hholds hinactive
      hinode
    rw [hfails, Option.some.injEq] at h
    subst h
    exact .inr (.inr ⟨e, rfl, fun hquiet => .inl (hcause (hundisturbed hquiet).1.1)⟩)
  · dsimp only at hphase
    subst hphase
    cases finished_of_advance h

end Inactive

/-! ### Runs of a closed session -/

/-- The phases of a load that waits for nothing but the cache. -/
def Phase.loadsBlob : Phase → Bool
  | .fetching _ _ => true
  | .fetched _ _ => true
  | .created _ => true
  | _ => false

/-- The phases of a read that waits for nothing but the cache. -/
def Phase.readsBlob : Phase → Bool
  | .reading _ => true
  | .served _ _ => true
  | _ => false

def Request.fits : Request → Phase → Bool
  | .readRange _ _ _, phase => !phase.loadsBlob
  | _, phase => !phase.readsBlob

/-- What holds in every state besides the invariants of `reached_accounted`. -/
structure Tidy (s : State) : Prop where
  gated : Cache.Gated s.cache
  fits : ∀ task ∈ s.tasks, task.request.fits task.phase = true
  poisoned : ∀ inode, s.poisoned inode = true → s.PanickedOn inode

section Tidy

variable [Uuid] [Sha256] [Prost] {env : Surroundings} {clock : ℤ} {session : Session}
  {cache : Cache.State} {request : Request} {phase : Phase} {outcome : Outcome}

omit [Uuid] [Sha256] [Prost] in
theorem fits_of_neither (hloads : phase.loadsBlob = false) (hreads : phase.readsBlob = false) :
    request.fits phase = true := by
  cases request <;> simp [Request.fits, hloads, hreads]

omit [Uuid] [Sha256] [Prost] in
theorem fits_of_directory {inode : InodeId} (hinode : request.directory = some inode)
    (hreads : phase.readsBlob = false) : request.fits phase = true := by
  cases request with
  | readRange => cases hinode
  | _ => simp [Request.fits, hreads]

omit [Sha256] [Prost] in
theorem Advances.fits (h : Advances env clock session cache request phase outcome) :
    request.fits outcome.phase = true := by
  cases h with
  | settled => exact fits_of_neither rfl rfl
  | overlaid => rfl
  | present _ _ hinode => exact fits_of_directory hinode rfl
  | requested _ _ hinode => exact fits_of_directory hinode rfl
  | fetched _ _ hinode => exact fits_of_directory hinode rfl
  | crashed => exact fits_of_neither rfl rfl
  | rejected => exact fits_of_neither rfl rfl
  | created _ _ hinode => exact fits_of_directory hinode rfl
  | recorded _ _ hinode => exact fits_of_directory hinode rfl
  | asked => rfl
  | served => rfl
  | counted => rfl
  | closed => rfl

omit [Uuid] [Sha256] [Prost] in
theorem Tidy.set {s : State} {i : ℕ} {task task' : Task} (h : Tidy s)
    (hi : s.tasks[i]? = some task) (hphase : task.phase ≠ .panicked)
    (hfits : task'.request.fits task'.phase = true) :
    Tidy { s with tasks := s.tasks.set i task' } where
  gated := h.gated
  fits := by
    intro other hother
    obtain hold | rfl := List.mem_or_eq_of_mem_set hother
    · exact h.fits other hold
    · exact hfits
  poisoned := fun inode hpoisoned => (h.poisoned inode hpoisoned).set hi hphase task'

theorem Tidy.step {root : PathBuf} {initial : PathBuf → Option Bytes} {s s' : State}
    (h : Tidy s) (horderly : Orderly root initial s) (hstep : Steps root s s') : Tidy s' := by
  have hpoisoned : ∀ inode, s'.poisoned inode = true → s'.PanickedOn inode := fun inode =>
    panickedOn_of_poisoned (h.poisoned inode) hstep
  cases hstep with
  | call request =>
      refine ⟨h.gated, fun task htask => ?_, hpoisoned⟩
      obtain hold | hnew := List.mem_append.mp htask
      · exact h.fits task hold
      · rw [List.mem_singleton.mp hnew]
        exact fits_of_neither rfl rfl
  | lock i request inode hi =>
      exact h.set hi (fun hphase => by cases hphase) (fits_of_neither rfl rfl)
  | refused i request inode hi =>
      exact h.set hi (fun hphase => by cases hphase) (fits_of_neither rfl rfl)
  | proceed i env clock request phase outcome hi hadvance =>
      have hadvances := advances_of_advance hadvance
      refine ⟨?_, fun task htask => ?_, hpoisoned⟩
      · obtain ⟨hcache, -⟩ | ⟨digest, asked, hcache, -⟩ := hadvances.cache_cases
        · dsimp only
          rw [hcache]
          exact h.gated
        · dsimp only
          rw [hcache]
          exact h.gated.begin (digest, asked)
      · obtain hold | rfl := List.mem_or_eq_of_mem_set htask
        · exact h.fits task hold
        · exact hadvances.fits
  | cache call action cache hcache =>
      exact ⟨h.gated.step horderly.cache.locks hcache, h.fits, hpoisoned⟩

omit [Uuid] [Sha256] [Prost] in
theorem tidy_start (rootDigest : Digest) (store : SessionStore)
    (files : PathBuf → Option Bytes) : Tidy (start rootDigest store files) where
  gated := Cache.gated_start files
  fits := fun task htask => by cases htask
  poisoned := fun inode hpoisoned => by cases hpoisoned

end Tidy

/-- A state of a session that was closed, with what every interleaving keeps. -/
structure Closed (root : PathBuf) [Uuid] (s : State) : Prop where
  orderly : ∃ initial, Orderly root initial s
  tidy : Tidy s
  holds : ∃ ns, s.session.store.database.Holds ns
  inactive : ¬ s.session.store.database.Active

section Runs

variable [Uuid] [Sha256] [Prost] {root : PathBuf} {s s' : State}

theorem Closed.step_store (h : Closed root s) (hstep : Steps root s s') :
    s'.session.store = s.session.store := by
  cases hstep with
  | proceed i env clock request phase outcome hi hadvance =>
      obtain ⟨ns, hholds⟩ := h.holds
      exact store_of_inactive hholds h.inactive hadvance
  | _ => rfl

theorem Closed.step (h : Closed root s) (hstep : Steps root s s') : Closed root s' := by
  have hstore := h.step_store hstep
  obtain ⟨initial, horderly⟩ := h.orderly
  refine ⟨⟨initial, horderly.step hstep⟩, h.tidy.step horderly hstep, ?_, ?_⟩
  · rw [hstore]
    exact h.holds
  · rw [hstore]
    exact h.inactive

theorem Closed.run (h : Closed root s) {moves : List Move}
    (hrun : Transition.run (System.step root) s moves = some s') : Closed root s' :=
  Transition.run_invariant (fun _ _ _ hclosed hstep => hclosed.step (steps_of_step hstep))
    moves s s' h hrun

/-- What a run from a closed state keeps: the store, and the lateness of later calls. -/
structure Frozen (s : State) (undisturbed : Prop) (s' : State) : Prop where
  store : s'.session.store = s.session.store
  late : ∀ i task, s.tasks.length ≤ i → s'.tasks[i]? = some task → Late undisturbed s' task

omit [Uuid] [Sha256] [Prost] in
theorem Frozen.refl (s : State) (undisturbed : Prop) : Frozen s undisturbed s where
  store := rfl
  late := by
    intro i task hi htask
    rw [List.getElem?_eq_none hi] at htask
    cases htask

theorem Frozen.step {t t' : State} {undisturbed : Prop} {move : Move} (hclosed : Closed root t)
    (hmove : undisturbed → move.Undisturbed) (h : Frozen s undisturbed t)
    (hstep : System.step root t move = some t') : Frozen s undisturbed t' := by
  have hsteps := steps_of_step hstep
  refine ⟨(hclosed.step_store hsteps).trans h.store, fun j task hj htask => ?_⟩
  have hkept : ∀ {task}, t.tasks[j]? = some task → Late undisturbed t' task :=
    fun hold => (h.late j _ hj hold).step hsteps
  cases move with
  | call request =>
      cases hstep
      obtain hold | rfl := Pool.getElem?_append_cases htask
      · exact hkept hold
      · exact .inl rfl
  | lock i =>
      obtain ⟨request, inode, hi, hinode, -, rfl⟩ := lock_cases hstep
      obtain ⟨rfl, rfl⟩ | ⟨-, hold⟩ := Pool.getElem?_set_cases htask
      · by_cases hpoisoned : t.poisoned inode = true
        · have hpanicked := (hclosed.tidy.poisoned inode hpoisoned).step hsteps
          exact .inr (.inr ⟨_, if_pos hpoisoned, fun _ => .inr ⟨inode, hinode, hpanicked, rfl⟩⟩)
        · exact .inr (.inl ⟨if_neg hpoisoned, by rw [hinode]; rfl⟩)
      · exact hkept hold
  | proceed i env clock =>
      obtain ⟨request, phase, outcome, hi, hadvance, rfl⟩ := proceed_cases hstep
      obtain ⟨rfl, rfl⟩ | ⟨-, hold⟩ := Pool.getElem?_set_cases htask
      · obtain ⟨ns, hholds⟩ := hclosed.holds
        exact late_of_advance hholds hclosed.inactive hmove (h.late _ _ hj hi) hadvance
      · exact hkept hold
  | cache call action =>
      obtain ⟨cache, -, rfl⟩ := cache_cases hstep
      exact hkept htask

theorem frozen_of_run {moves : List Move} (hclosed : Closed root s)
    (hrun : Transition.run (System.step root) s moves = some s') :
    Frozen s (∀ move ∈ moves, move.Undisturbed) s' := by
  have hstep : ∀ t move t', move ∈ moves →
      Closed root t ∧ Frozen s (∀ move ∈ moves, move.Undisturbed) t →
      System.step root t move = some t' →
      Closed root t' ∧ Frozen s (∀ move ∈ moves, move.Undisturbed) t' := by
    rintro t move t' hmem ⟨hclosed, hfrozen⟩ hstep
    exact ⟨hclosed.step (steps_of_step hstep),
      hfrozen.step hclosed (fun hundisturbed => hundisturbed move hmem) hstep⟩
  exact (Transition.run_invariant_of_mem hstep moves s s' (fun move hmem => hmem)
    ⟨hclosed, .refl s _⟩ hrun).2

end Runs

/-! ### Every call can return -/

/-- The most steps after which a call that waits for nothing has let go of the lock of its
inode. -/
def Phase.left : Phase → ℕ
  | .fetching _ _ => 3
  | .fetched _ _ => 2
  | .created _ => 1
  | .reading _ => 2
  | .served _ _ => 1
  | _ => 0

/-- The call of the cache a call waits for has returned or panicked. -/
def Phase.Ready (cache : Cache.State) (phase : Phase) : Prop :=
  ∀ call, phase.awaited = some call → ∃ p, cachePhase cache call = some p ∧ p.over

theorem undisturbed_lock (i : ℕ) : Move.Undisturbed (.lock i) := trivial

theorem undisturbed_calm (i : ℕ) : Move.Undisturbed (.proceed i calm 0) :=
  ⟨⟨fun _ => rfl, fun _ => rfl, fun _ => rfl⟩, by decide⟩

section Progress

variable [Uuid] [Sha256] [Prost] {root : PathBuf} {s : State}

omit [Uuid] [Sha256] [Prost] in
theorem over_cases {phase : Cache.Phase} (h : phase.over) :
    (∃ lock, phase = .panicked lock) ∨ ∃ result, phase = .returned result := by
  cases phase with
  | panicked lock => exact .inl ⟨lock, rfl⟩
  | returned result => exact .inr ⟨result, rfl⟩
  | _ => cases h

/-- A step that brings a call closer to the end of its hold. -/
def Closer (cache : Cache.State) (phase : Phase) (step : Option Outcome) : Prop :=
  ∃ outcome, step = some outcome ∧ outcome.cache = cache ∧
    (outcome.phase.guarding = true →
      outcome.phase.awaited = none ∧ outcome.phase.left < phase.left)

section Closer

variable (env : Surroundings) (session : Session) {cache : Cache.State} (inode : InodeId)
  {phase : Phase}

theorem closer_load (hloads : phase.loadsBlob = true) (hready : phase.Ready cache) :
    Closer cache phase (load env session cache inode phase) := by
  cases phase with
  | fetching digest call =>
      obtain ⟨p, hp, hover⟩ := hready call rfl
      rw [load, hp]
      obtain ⟨lock, rfl⟩ | ⟨result, rfl⟩ := over_cases hover
      · exact ⟨_, rfl, rfl, fun hguarding => by cases hguarding⟩
      · cases result with
        | error e => exact ⟨_, rfl, rfl, fun hguarding => by cases hguarding⟩
        | ok read =>
            dsimp only
            split
            · exact ⟨_, rfl, rfl, fun hguarding => by cases hguarding⟩
            · exact ⟨_, rfl, rfl, fun _ => ⟨rfl, Nat.lt_succ_self 2⟩⟩
  | fetched children downloaded =>
      rw [load]
      split
      · exact ⟨_, rfl, rfl, fun hguarding => by cases hguarding⟩
      · exact ⟨_, rfl, rfl, fun _ => ⟨rfl, Nat.lt_succ_self 1⟩⟩
  | created downloaded => exact ⟨_, rfl, rfl, fun hguarding => by cases hguarding⟩
  | _ => cases hloads

omit [Sha256] [Prost] in
theorem closer_read (offset size : ℕ) (hreads : phase.readsBlob = true)
    (hready : phase.Ready cache) :
    Closer cache phase (read env session cache inode offset size phase) := by
  cases phase with
  | reading call =>
      obtain ⟨p, hp, hover⟩ := hready call rfl
      rw [read, hp]
      obtain ⟨lock, rfl⟩ | ⟨result, rfl⟩ := over_cases hover
      · exact ⟨_, rfl, rfl, fun hguarding => by cases hguarding⟩
      · cases result with
        | error e => exact ⟨_, rfl, rfl, fun hguarding => by cases hguarding⟩
        | ok read => exact ⟨_, rfl, rfl, fun _ => ⟨rfl, Nat.lt_succ_self 1⟩⟩
  | served bytes downloaded => exact ⟨_, rfl, rfl, fun hguarding => by cases hguarding⟩
  | _ => cases hreads

end Closer

omit [Uuid] [Sha256] [Prost] in
theorem guarding_cases {phase : Phase} (h : phase.guarding = true) :
    phase = .locked ∨ phase.loadsBlob = true ∨ phase.readsBlob = true := by
  cases phase with
  | locked => exact .inl rfl
  | fetching | fetched | created => exact .inr (.inl rfl)
  | reading | served => exact .inr (.inr rfl)
  | _ => cases h

/-- In a closed session every step of a call that holds a lock brings it closer to the end of
its hold. -/
theorem closer_advance {session : Session} {cache : Cache.State} {request : Request}
    {phase : Phase} {inode : InodeId} {ns : Namespace}
    (hholds : session.store.database.Holds ns) (hinactive : ¬ session.store.database.Active)
    (hinode : request.guarded = some inode) (hguarding : phase.guarding = true)
    (hfits : request.fits phase = true) (hready : phase.Ready cache) :
    Closer cache phase (advance calm 0 session cache request phase) := by
  obtain rfl | hloads | hreads := guarding_cases hguarding
  · obtain ⟨e, hfails, -⟩ := advance_locked_of_inactive calm 0 cache hholds hinactive hinode
    exact ⟨_, hfails, rfl, fun hguarding => by cases hguarding⟩
  · have hphase : phase ≠ .loaded := by
      rintro rfl
      cases hloads
    cases request with
    | getInode | close => cases hinode
    | lookupChild parent name =>
        rw [advance_eq_load rfl hphase]
        exact closer_load calm session parent hloads hready
    | listDirectory directory =>
        rw [advance_eq_load rfl hphase]
        exact closer_load calm session directory hloads hready
    | readRange => simp [Request.fits, hloads] at hfits
  · cases request with
    | getInode | close => cases hinode
    | lookupChild | listDirectory => simp [Request.fits, hreads] at hfits
    | readRange inode offset size => exact closer_read calm session inode offset size hreads hready

/-- A run, none of whose steps SQLite or the clock disturbs, after which the call holds no lock;
the other calls are as they were. -/
def Releases (root : PathBuf) (s : State) (i : ℕ) : Prop :=
  ∃ moves s' task', (∀ move ∈ moves, Move.Undisturbed move) ∧
    Transition.run (step root) s moves = some s' ∧ s'.tasks[i]? = some task' ∧
    task'.phase.guarding = false ∧ ∀ j, j ≠ i → s'.tasks[j]? = s.tasks[j]?

theorem releases_of_free {i : ℕ} {task : Task} (hi : s.tasks[i]? = some task)
    (hfree : task.phase.guarding = false) : Releases root s i :=
  ⟨[], s, task, fun _ hmove => absurd hmove List.not_mem_nil, rfl, hi, hfree, fun _ _ => rfl⟩

theorem Releases.append {s' : State} {i : ℕ} {moves : List Move}
    (hundisturbed : ∀ move ∈ moves, Move.Undisturbed move)
    (hrun : Transition.run (step root) s moves = some s')
    (hothers : ∀ j, j ≠ i → s'.tasks[j]? = s.tasks[j]?) (h : Releases root s' i) :
    Releases root s i := by
  obtain ⟨more, last, task, hmore, hlast, htask, hguarding, hsame⟩ := h
  exact ⟨moves ++ more, last, task, List.forall_mem_append.mpr ⟨hundisturbed, hmore⟩,
    (Transition.run_append _ _ _ _ _ hrun).trans hlast, htask, hguarding,
    fun j hj => (hsame j hj).trans (hothers j hj)⟩

theorem step_proceed {i : ℕ} {request : Request} {phase : Phase} {outcome : Outcome}
    {env : Surroundings} {clock : ℤ} (hi : s.tasks[i]? = some ⟨request, phase⟩)
    (hadvance : advance env clock s.session s.cache request phase = some outcome) :
    step root s (.proceed i env clock) = some
      { session := outcome.session
        cache := outcome.cache
        poisoned := poison s.poisoned request outcome.poisons
        tasks := s.tasks.set i ⟨request, outcome.phase⟩ } := by
  rw [step, hi]
  dsimp only
  rw [hadvance]

theorem releases_of_ready (hclosed : Closed root s) {i : ℕ} {request : Request} {phase : Phase}
    {inode : InodeId} (hi : s.tasks[i]? = some ⟨request, phase⟩)
    (hinode : request.guarded = some inode) (hready : phase.Ready s.cache) :
    Releases root s i := by
  induction hn : phase.left using Nat.strong_induction_on generalizing s phase with
  | h n ih =>
      cases hguarding : phase.guarding with
      | false => exact releases_of_free hi hguarding
      | true =>
          obtain ⟨ns, hholds⟩ := hclosed.holds
          obtain ⟨outcome, hadvance, hcache, hless⟩ := closer_advance hholds hclosed.inactive
            hinode hguarding (hclosed.tidy.fits _ (List.mem_of_getElem? hi)) hready
          have hstep : step root s _ = some _ := step_proceed hi hadvance
          have hrun := (Transition.run_singleton (step root) s _).trans hstep
          have hi' := Pool.getElem?_set_same hi ⟨request, outcome.phase⟩
          refine .append (List.forall_mem_singleton.mpr (undisturbed_calm i)) hrun
            (fun j hj => List.getElem?_set_ne (Ne.symm hj)) ?_
          cases hheld : outcome.phase.guarding with
          | false => exact releases_of_free hi' hheld
          | true =>
              obtain ⟨hnone, hlt⟩ := hless hheld
              have hready' : outcome.phase.Ready outcome.cache := by
                intro call hcall
                rw [hnone] at hcall
                cases hcall
              exact ih _ (hn ▸ hlt) (hclosed.step (steps_of_step hstep)) hi' hready' rfl

theorem releases (hclosed : Closed root s) {i : ℕ} {request : Request} {phase : Phase}
    {inode : InodeId} (hi : s.tasks[i]? = some ⟨request, phase⟩)
    (hinode : request.guarded = some inode) : Releases root s i := by
  cases hawaited : phase.awaited with
  | none =>
      refine releases_of_ready hclosed hi hinode fun call hcall => ?_
      rw [hawaited] at hcall
      cases hcall
  | some call =>
      obtain ⟨initial, horderly⟩ := hclosed.orderly
      have hmade := horderly.made _ (List.mem_of_getElem? hi) call hawaited
      obtain ⟨moves, cache, thread, hrun, hthread, hover⟩ :=
        Cache.canFinish root horderly.cache.locks hclosed.tidy.gated
          (List.getElem?_eq_getElem hmade)
      -- the steps of the cache are steps of the session
      have hembedded := Transition.run_embed (step root)
        (fun cache => ({ s with cache := cache } : State)) (fun move => .cache move.1 move.2)
        (fun cache move cache' hstep => by
          rw [Cache.stepCall] at hstep
          rw [step, hstep]) moves s.cache cache hrun
      refine .append (fun move hmove => ?_) hembedded (fun j _ => rfl) ?_
      · obtain ⟨move', -, rfl⟩ := List.mem_map.mp hmove
        trivial
      · refine releases_of_ready (hclosed.run hembedded) hi hinode fun other hother => ?_
        rw [hawaited, Option.some.injEq] at hother
        subst hother
        exact ⟨thread.phase, by rw [cachePhase, hthread]; rfl, hover⟩

omit [Uuid] [Sha256] [Prost] in
theorem holds_eq_false_of_released {s' : State} {i : ℕ} {task task' : Task} {inode : InodeId}
    (hexclusive : s.tasks.countP (Task.holds inode) ≤ 1) (hi : s.tasks[i]? = some task)
    (hholds : task.holds inode = true) (hi' : s'.tasks[i]? = some task')
    (hfree : task'.phase.guarding = false) (hothers : ∀ j, j ≠ i → s'.tasks[j]? = s.tasks[j]?) :
    s'.tasks.any (Task.holds inode) = false := by
  refine List.any_eq_false.mpr fun other hother hheld => ?_
  obtain ⟨j, hj⟩ := List.mem_iff_getElem?.mp hother
  by_cases hji : j = i
  · rw [hji, hi', Option.some.injEq] at hj
    have hguarding := (of_decide_eq_true hheld).2
    rw [← hj, hfree] at hguarding
    cases hguarding
  · rw [hothers j hji] at hj
    exact hji (Pool.eq_of_countP_le_one hexclusive hj hi hheld hholds)

/-- A call that is made in a closed session can return. -/
def CanReturn (root : PathBuf) (s : State) (i : ℕ) (request : Request) : Prop :=
  ∃ moves s' result, (∀ move ∈ moves, Move.Undisturbed move) ∧
    Transition.run (step root) s moves = some s' ∧
    s'.tasks[i]? = some ⟨request, .returned result⟩

theorem CanReturn.append {s' : State} {i : ℕ} {request : Request} {moves : List Move}
    (hundisturbed : ∀ move ∈ moves, Move.Undisturbed move)
    (hrun : Transition.run (step root) s moves = some s') (h : CanReturn root s' i request) :
    CanReturn root s i request := by
  obtain ⟨more, last, result, hmore, hlast, hresult⟩ := h
  exact ⟨moves ++ more, last, result, List.forall_mem_append.mpr ⟨hundisturbed, hmore⟩,
    (Transition.run_append _ _ _ _ _ hrun).trans hlast, hresult⟩

theorem canReturn_of_step {s' : State} {i : ℕ} {request : Request} {move : Move}
    {result : Except SessionError Answer} (hundisturbed : move.Undisturbed)
    (hstep : step root s move = some s')
    (hresult : s'.tasks[i]? = some ⟨request, .returned result⟩) : CanReturn root s i request :=
  ⟨[move], s', result, List.forall_mem_singleton.mpr hundisturbed,
    (Transition.run_singleton (step root) s move).trans hstep, hresult⟩

theorem canReturn_of_locked (hclosed : Closed root s) {i : ℕ} {request : Request}
    {inode : InodeId} (hi : s.tasks[i]? = some ⟨request, .locked⟩)
    (hinode : request.guarded = some inode) : CanReturn root s i request := by
  obtain ⟨ns, hholds⟩ := hclosed.holds
  obtain ⟨e, hfails, -⟩ :=
    advance_locked_of_inactive calm 0 s.cache hholds hclosed.inactive hinode
  exact canReturn_of_step (undisturbed_calm i) (step_proceed hi hfails)
    (Pool.getElem?_set_same hi _)

theorem canReturn_of_free (hclosed : Closed root s) {i : ℕ} {request : Request}
    {inode : InodeId} (hi : s.tasks[i]? = some ⟨request, .called⟩)
    (hinode : request.guarded = some inode) (hfree : s.tasks.any (Task.holds inode) = false) :
    CanReturn root s i request := by
  have hstep : step root s (.lock i) = some { s with
      tasks := s.tasks.set i ⟨request, if s.poisoned inode then
        .returned (.error (poisonedLock inode request)) else .locked⟩ } := by
    rw [step, hi]
    dsimp only
    rw [hinode]
    dsimp only
    rw [hfree, if_neg Bool.false_ne_true]
  by_cases hpoisoned : s.poisoned inode = true
  · rw [if_pos hpoisoned] at hstep
    exact canReturn_of_step (undisturbed_lock i) hstep (Pool.getElem?_set_same hi _)
  · rw [if_neg hpoisoned] at hstep
    refine .append (List.forall_mem_singleton.mpr (undisturbed_lock i))
      ((Transition.run_singleton (step root) s (.lock i)).trans hstep) ?_
    exact canReturn_of_locked (hclosed.step (steps_of_step hstep))
      (Pool.getElem?_set_same hi _) hinode

theorem canReturn_of_called (hclosed : Closed root s) {i : ℕ} {request : Request}
    (hi : s.tasks[i]? = some ⟨request, .called⟩) : CanReturn root s i request := by
  cases hinode : request.guarded with
  | none =>
      obtain ⟨ns, hholds⟩ := hclosed.holds
      obtain ⟨e, hfails, -⟩ :=
        advance_called_of_inactive calm 0 s.cache hholds hclosed.inactive hinode
      exact canReturn_of_step (undisturbed_calm i) (step_proceed hi hfails)
        (Pool.getElem?_set_same hi _)
  | some inode =>
      cases hfree : s.tasks.any (Task.holds inode) with
      | false => exact canReturn_of_free hclosed hi hinode hfree
      | true =>
          obtain ⟨holder, hmem, hholds⟩ := List.any_eq_true.mp hfree
          obtain ⟨j, hj⟩ := List.mem_iff_getElem?.mp hmem
          obtain ⟨hguarded, hguarding⟩ := of_decide_eq_true hholds
          obtain ⟨moves, s', task', hundisturbed, hrun, hj', hreleased, hothers⟩ :=
            releases hclosed hj hguarded
          obtain ⟨initial, horderly⟩ := hclosed.orderly
          have hij : i ≠ j := by
            rintro rfl
            rw [hi, Option.some.injEq] at hj
            rw [← hj] at hguarding
            cases hguarding
          refine .append hundisturbed hrun (canReturn_of_free (hclosed.run hrun)
            ((hothers i hij).trans hi) hinode ?_)
          exact holds_eq_false_of_released (horderly.exclusive inode) hj hholds hj' hreleased
            hothers

theorem Late.canReturn {undisturbed : Prop} {i : ℕ} {task : Task} (hclosed : Closed root s)
    (hi : s.tasks[i]? = some task) (h : Late undisturbed s task) :
    CanReturn root s i task.request := by
  obtain ⟨request, phase⟩ := task
  obtain hphase | ⟨hphase, hguarded⟩ | ⟨e, hphase, -⟩ := h
  · exact canReturn_of_called hclosed (hphase ▸ hi)
  · obtain ⟨inode, hinode⟩ := Option.isSome_iff_exists.mp hguarded
    exact canReturn_of_locked hclosed (hphase ▸ hi) hinode
  · exact ⟨[], s, .error e, fun move hmove => absurd hmove List.not_mem_nil, rfl, hphase ▸ hi⟩

end Progress

/-! ### Sessions from their start -/

section Reached

variable [Uuid] {s : State}

/-- The session is open and no close has succeeded, or it was closed by one. -/
def Lifecycle (s : State) : Prop :=
  (s.session.store.database.Open ∧ s.tasks.countP Task.closed = 0) ∨
    (∃ seconds, s.session.store.database.ClosedAt seconds) ∧ s.tasks.countP Task.closed = 1

theorem lifecycle_of_stored {facts : SessionMetadata} (hactive : facts.state = .active)
    (h : Stored facts s) : Lifecycle s := by
  cases h with
  | active row hrow hvalid hnone =>
      have hdatabase : s.session.store.database.Active := ⟨row, facts, hrow, hvalid, hactive⟩
      exact .inl ⟨hdatabase.isOpen, hnone⟩
  | closed row hrow hvalid hone =>
      exact .inr ⟨Database.closedAt_of_validateSession hrow hvalid rfl, hone⟩

variable [Sha256] [Prost] {rootDigest : Digest} {root : PathBuf}

theorem reached_lifecycle (h : Reached rootDigest root s) :
    (∃ initial, Orderly root initial s) ∧ Tidy s ∧
      (∃ ns, s.session.store.database.Holds ns) ∧ Lifecycle s := by
  obtain ⟨_, _, _, _, _, _, store, files, moves, hcreate, hrun⟩ := h
  obtain ⟨hholds, row, facts, hrow, hvalid, hactive⟩ := create_holds hcreate
  have hstep : ∀ s move s', (Orderly root files s ∧ (∃ ns, Accounted s ns) ∧ Tidy s ∧
      Stored facts s) → step root s move = some s' →
      Orderly root files s' ∧ (∃ ns, Accounted s' ns) ∧ Tidy s' ∧ Stored facts s' := by
    rintro s move s' ⟨horderly, ⟨ns, haccounted⟩, htidy, hstored⟩ hmove
    have hsteps := steps_of_step hmove
    exact ⟨horderly.step hsteps, haccounted.step horderly.exclusive hsteps,
      htidy.step horderly hsteps, hstored.step haccounted.holds hmove⟩
  obtain ⟨horderly, ⟨ns, haccounted⟩, htidy, hstored⟩ := Transition.run_invariant hstep moves
    (start rootDigest store files) s
    ⟨orderly_start root rootDigest store files, ⟨_, accounted_start hholds files⟩,
      tidy_start rootDigest store files, .active row hrow hvalid rfl⟩ hrun
  exact ⟨⟨files, horderly⟩, htidy, ⟨ns, haccounted.holds⟩, lifecycle_of_stored hactive hstored⟩

end Reached

/-- In every interleaving of calls the session is open without a close time, or closed with one,
and it is closed exactly when a close has succeeded, which happens once. From then on the
database does not change, and every call made afterwards can return and returns an error. When
neither SQLite nor the clock fails the error is a failed precondition, or says that the lock of
the inode is poisoned, which then a call that panicked has done. -/
theorem closed_session_frozen [Uuid] [Sha256] [Prost] (rootDigest : Digest) (root : PathBuf)
    (s : State) (hreached : Reached rootDigest root s) :
    (s.session.store.database.Open ∨ ∃ seconds, s.session.store.database.ClosedAt seconds) ∧
      s.tasks.countP Task.closed ≤ 1 ∧
      (s.tasks.countP Task.closed = 1 ↔
        ∃ seconds, s.session.store.database.ClosedAt seconds) ∧
      ∀ seconds, s.session.store.database.ClosedAt seconds →
        ∀ moves s', Transition.run (step root) s moves = some s' →
          s'.session.store.database = s.session.store.database ∧
          ∀ i task, s.tasks.length ≤ i → s'.tasks[i]? = some task →
            task.phase ≠ .panicked ∧
            (∀ result, task.phase = .returned result → ∃ e, result = .error e ∧
              ((∀ move ∈ moves, move.Undisturbed) → Refuses s' task.request e)) ∧
            CanReturn root s' i task.request := by
  obtain ⟨horderly, htidy, hholds, hlifecycle⟩ := reached_lifecycle hreached
  refine ⟨?_, ?_, ?_, ?_⟩
  · exact hlifecycle.imp And.left And.left
  · obtain ⟨-, hcount⟩ | ⟨-, hcount⟩ := hlifecycle
    · omega
    · omega
  · obtain ⟨⟨row, hrow, hactive, -⟩, hcount⟩ | ⟨hclosed, hcount⟩ := hlifecycle
    · refine ⟨fun hone => absurd (hcount.symm.trans hone) (by decide), ?_⟩
      rintro ⟨seconds, row', hrow', hclosed, -⟩
      rw [hrow, Option.some.injEq] at hrow'
      rw [← hrow', hactive] at hclosed
      exact absurd hclosed (by decide)
    · exact ⟨fun _ => hclosed, fun _ => hcount⟩
  · intro seconds hclosedAt moves s' hrun
    have hclosed : Closed root s := ⟨horderly, htidy, hholds, hclosedAt.not_active⟩
    have hfrozen := frozen_of_run hclosed hrun
    refine ⟨by rw [hfrozen.store], fun i task hi htask => ?_⟩
    have hlate := hfrozen.late i task hi htask
    refine ⟨?_, ?_, hlate.canReturn (hclosed.run hrun) htask⟩
    · intro hpanicked
      rw [Late, hpanicked] at hlate
      simp at hlate
    · intro result hresult
      rw [Late, hresult] at hlate
      simpa using hlate

namespace Sample

def panicked : List Move :=
  [.call (.listDirectory .root), .lock 0, .proceed 0 calm 0] ++
    ([.check, .acquire, .enterGate, .recheck, .startPendingBlob none, .panicStream] :
      List Cache.Action).map (.cache 0) ++
    [.proceed 0 calm 0, .call .close, .proceed 1 calm 7]

def listed : List Move :=
  [.call (.listDirectory .root), .lock 2]

theorem panicked_listed :
    letI : Uuid := Session.Sample.uuid
    letI : Sha256 := Cache.Sample.sha256
    letI : Prost := prost
    ∃ store s s', SessionStore.create Session.Sample.quiet [.utf8 "session.db"]
        "67e55044-10b1-426f-9247-bb680e5fe0c8" 7 Cache.Sample.digest [.utf8 "", .utf8 "mnt"] 3 =
          .ok store ∧
      Transition.run (step []) (start Cache.Sample.digest store fun _ => none) panicked = some s ∧
      s.tasks.countP Task.closed = 1 ∧ s.session.store.database.ClosedAt 7 ∧
      s.tasks.length = 2 ∧ Transition.run (step []) s listed = some s' ∧
      s'.tasks[2]? = some ⟨.listDirectory .root,
        .returned (.error (poisonedLock .root (.listDirectory .root)))⟩ := by
  refine ⟨_, _, _, rfl, rfl, ?_, ⟨_, rfl, rfl, rfl⟩, ?_, rfl, ?_⟩
  · rfl
  · rfl
  · rfl

theorem listed_undisturbed : ∀ move ∈ listed, Move.Undisturbed move := by
  intro move hmove
  simp only [listed, List.mem_cons, List.not_mem_nil, or_false] at hmove
  obtain rfl | rfl := hmove
  · trivial
  · trivial

end Sample

/-- A listing that starts after the close fails with an internal error, since a call that
panicked has poisoned the lock of the directory. -/
theorem poisoned_lock_of_closed_session :
    letI : Uuid := Session.Sample.uuid
    letI : Sha256 := Cache.Sample.sha256
    letI : Prost := Sample.prost
    ∃ s s' e, Reached Cache.Sample.digest [] s ∧ s.tasks.countP Task.closed = 1 ∧
      s.session.store.database.ClosedAt 7 ∧ s.tasks.length = 2 ∧
      Transition.run (step []) s Sample.listed = some s' ∧
      (∀ move ∈ Sample.listed, Move.Undisturbed move) ∧
      s'.tasks[2]? = some ⟨.listDirectory .root, .returned (.error e)⟩ ∧
      ∀ reason, e.root ≠ failedPrecondition reason := by
  let _ : Uuid := Session.Sample.uuid
  let _ : Sha256 := Cache.Sample.sha256
  let _ : Prost := Sample.prost
  obtain ⟨store, s, s', hcreate, hrun, hcount, hclosed, hlength, hlisted, hanswer⟩ :=
    Sample.panicked_listed
  exact ⟨s, s', _, ⟨_, _, _, _, _, _, store, _, _, hcreate, hrun⟩, hcount, hclosed, hlength,
    hlisted, Sample.listed_undisturbed, hanswer, fun reason hroot => by cases hroot⟩

/-- The same listing, in a session that was closed seven seconds after the epoch. -/
theorem closed_session_frozen_sample :
    letI : Uuid := Session.Sample.uuid
    letI : Sha256 := Cache.Sample.sha256
    letI : Prost := Sample.prost
    ∃ s s' task, Reached Cache.Sample.digest [] s ∧
      Transition.run (step []) s Sample.listed = some s' ∧
      s'.session.store.database = s.session.store.database ∧ s'.tasks[2]? = some task ∧
      ∃ e, task.phase = .returned (.error e) ∧ Refuses s' task.request e := by
  let _ : Uuid := Session.Sample.uuid
  let _ : Sha256 := Cache.Sample.sha256
  let _ : Prost := Sample.prost
  obtain ⟨store, s, s', hcreate, hrun, -, hclosed, hlength, hlisted, hanswer⟩ :=
    Sample.panicked_listed
  have hreached : Reached Cache.Sample.digest [] s :=
    ⟨_, _, _, _, _, _, store, _, _, hcreate, hrun⟩
  obtain ⟨-, -, -, hfrozen⟩ := closed_session_frozen Cache.Sample.digest [] s hreached
  obtain ⟨hsame, hlate⟩ := hfrozen 7 hclosed Sample.listed s' hlisted
  obtain ⟨-, hreturned, -⟩ := hlate 2 _ (le_of_eq hlength) hanswer
  obtain ⟨e, he, hcause⟩ := hreturned _ rfl
  exact ⟨s, s', _, hreached, hlisted, hsame, hanswer, e, by rw [he],
    hcause Sample.listed_undisturbed⟩

end System

end Session

end RemoteFs
