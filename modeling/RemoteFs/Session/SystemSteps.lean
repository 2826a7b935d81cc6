import RemoteFs.Session.CacheReports
import RemoteFs.Session.System

/-!
# What a step of the system can do

`Advances` lists the steps of a call by what they do to the session and to the cache, and
`Steps` those of the system; invariants are proved by cases on them. The first ones say that one
call at a time holds the lock of an inode, that a call of the cache is waited for by one call,
and that the cache keeps its own invariants.
-/

namespace RemoteFs

namespace Session

namespace System

section Steps

variable [Uuid] [Sha256] [Prost]

inductive Advances (env : Surroundings) (clock : ℤ) (session : Session) (cache : Cache.State) :
    Request → Phase → Outcome → Prop
  | settled (request : Request) (phase : Phase) (result : Except SessionError Answer)
      (hphase : phase.finished = false) (hcreated : ∀ downloaded, phase ≠ .created downloaded)
      (hresult : ∀ inode offset size answer, request = .readRange inode offset size →
        result ≠ .ok answer) :
      Advances env clock session cache request phase
        (.unpoisoned session cache (.returned result))
  | overlaid (inode : InodeId) (offset size : ℕ) (path : PathBuf)
      (h : backing env session inode = .ok (.overlay path)) :
      Advances env clock session cache (.readRange inode offset size) .locked
        (.unpoisoned session cache (.returned ((env.readOverlay path offset size).map .bytes)))
  | present (request : Request) (inode : InodeId) (hinode : request.directory = some inode)
      (h : digestToLoad env session inode = .ok none) :
      Advances env clock session cache request .locked (.unpoisoned session cache .loaded)
  | requested (request : Request) (inode : InodeId) (hinode : request.directory = some inode)
      (digest : Digest) (h : digestToLoad env session inode = .ok (some digest)) :
      Advances env clock session cache request .locked
        (.unpoisoned session (begun cache digest .readBlob)
          (.fetching digest cache.threads.length))
  | fetched (request : Request) (inode : InodeId) (hinode : request.directory = some inode)
      (digest : Digest) (call : ℕ) (bytes : Bytes) (children : List NewRemoteInode)
      (downloaded : Bool)
      (h : cachePhase cache call = some (.returned (.ok (bytes, downloaded)))) :
      Advances env clock session cache request (.fetching digest call)
        (.unpoisoned session cache (.fetched children downloaded))
  | crashed (request : Request) (phase : Phase) (call : ℕ) (hphase : phase.awaited = some call) :
      Advances env clock session cache request phase
        { session := session, cache := cache, poisons := true, phase := .panicked }
  | rejected (request : Request) (inode : InodeId) (hinode : request.directory = some inode)
      (children : List NewRemoteInode) (downloaded : Bool) (e : SessionError)
      (store : SessionStore)
      (h : session.store.getOrCreateRemoteDirChildren env.loadSqlite inode children =
        (.error e, store)) :
      Advances env clock session cache request (.fetched children downloaded)
        (.unpoisoned { session with store := store } cache (.returned (.error e)))
  | created (request : Request) (inode : InodeId) (hinode : request.directory = some inode)
      (children : List NewRemoteInode) (downloaded : Bool) (stored : List StoreInode)
      (store : SessionStore)
      (h : session.store.getOrCreateRemoteDirChildren env.loadSqlite inode children =
        (.ok stored, store)) :
      Advances env clock session cache request (.fetched children downloaded)
        (.unpoisoned { session with store := store } cache (.created downloaded))
  | recorded (request : Request) (inode : InodeId) (hinode : request.directory = some inode)
      (downloaded : Bool) :
      Advances env clock session cache request (.created downloaded)
        (.unpoisoned (session.recordDirectoryRead downloaded) cache .loaded)
  | asked (inode : InodeId) (offset size : ℕ) (digest : Digest)
      (h : backing env session inode = .ok (.remote digest)) :
      Advances env clock session cache (.readRange inode offset size) .locked
        (.unpoisoned session (begun cache digest (.readRange offset size))
          (.reading cache.threads.length))
  | served (inode : InodeId) (offset size call : ℕ) (bytes : Bytes) (downloaded : Bool)
      (h : cachePhase cache call = some (.returned (.ok (bytes, downloaded)))) :
      Advances env clock session cache (.readRange inode offset size) (.reading call)
        (.unpoisoned session cache (.served bytes downloaded))
  | counted (inode : InodeId) (offset size : ℕ) (bytes : Bytes) (downloaded : Bool) :
      Advances env clock session cache (.readRange inode offset size) (.served bytes downloaded)
        (.unpoisoned (session.recordFileRead downloaded) cache (.returned (.ok (.bytes bytes))))
  | closed :
      Advances env clock session cache .close .called
        (.unpoisoned { session with store := (session.store.close env.loadSqlite clock).2 } cache
          (.returned ((session.store.close env.loadSqlite clock).1.map fun _ => .closed)))

theorem advances_of_load {env : Surroundings} {clock : ℤ} {session : Session}
    {cache : Cache.State} {request : Request} {inode : InodeId} {phase : Phase}
    {outcome : Outcome} (hinode : request.directory = some inode)
    (h : load env session cache inode phase = some outcome) :
    Advances env clock session cache request phase outcome := by
  cases phase with
  | locked =>
      rw [load] at h
      split at h
      · cases h
        exact .settled request _ _ rfl (fun _ => nofun) fun _ _ _ _ _ => nofun
      · next heq =>
          cases h
          exact .present request inode hinode heq
      · next digest heq =>
          cases h
          exact .requested request inode hinode digest heq
  | fetching digest call =>
      rw [load] at h
      split at h
      · cases h
        exact .settled request _ _ rfl (fun _ => nofun) fun _ _ _ _ _ => nofun
      · next bytes downloaded heq =>
          split at h
          · cases h
            exact .settled request _ _ rfl (fun _ => nofun) fun _ _ _ _ _ => nofun
          · next children _ =>
              cases h
              exact .fetched request inode hinode digest call bytes children downloaded heq
      · cases h
        exact .crashed request _ call rfl
      · cases h
  | fetched children downloaded =>
      rw [load] at h
      split at h
      · next e store heq =>
          cases h
          exact .rejected request inode hinode children downloaded e store heq
      · next stored store heq =>
          cases h
          exact .created request inode hinode children downloaded stored store heq
  | created downloaded =>
      cases h
      exact .recorded request inode hinode downloaded
  | _ => cases h

omit [Sha256] [Prost] in
theorem advances_of_read {env : Surroundings} {clock : ℤ} {session : Session}
    {cache : Cache.State} {inode : InodeId} {offset size : ℕ} {phase : Phase}
    {outcome : Outcome} (h : read env session cache inode offset size phase = some outcome) :
    Advances env clock session cache (.readRange inode offset size) phase outcome := by
  cases phase with
  | locked =>
      rw [read] at h
      split at h
      · cases h
        exact .settled _ _ _ rfl (fun _ => nofun) fun _ _ _ _ _ => nofun
      · next path heq =>
          cases h
          exact .overlaid inode offset size path heq
      · next digest heq =>
          cases h
          exact .asked inode offset size digest heq
  | reading call =>
      rw [read] at h
      split at h
      · cases h
        exact .settled _ _ _ rfl (fun _ => nofun) fun _ _ _ _ _ => nofun
      · next bytes downloaded heq =>
          cases h
          exact .served inode offset size call bytes downloaded heq
      · cases h
        exact .crashed _ _ call rfl
      · cases h
  | served bytes downloaded =>
      cases h
      exact .counted inode offset size bytes downloaded
  | _ => cases h

theorem advances_of_advance {env : Surroundings} {clock : ℤ} {session : Session}
    {cache : Cache.State} {request : Request} {phase : Phase} {outcome : Outcome}
    (h : advance env clock session cache request phase = some outcome) :
    Advances env clock session cache request phase outcome := by
  cases request with
  | getInode inode =>
      cases phase with
      | called =>
          cases h
          exact .settled _ _ _ rfl (fun _ => nofun) fun _ _ _ _ => nofun
      | _ => cases h
  | lookupChild parent name =>
      cases phase with
      | loaded =>
          cases h
          exact .settled _ _ _ rfl (fun _ => nofun) fun _ _ _ _ => nofun
      | _ => exact advances_of_load rfl h
  | listDirectory inode =>
      cases phase with
      | loaded =>
          cases h
          exact .settled _ _ _ rfl (fun _ => nofun) fun _ _ _ _ => nofun
      | _ => exact advances_of_load rfl h
  | readRange inode offset size => exact advances_of_read h
  | close =>
      cases phase with
      | called =>
          cases h
          exact .closed
      | _ => cases h

inductive Steps (root : PathBuf) (s : State) : State → Prop
  | call (request : Request) :
      Steps root s { s with tasks := s.tasks ++ [⟨request, .called⟩] }
  | lock (i : ℕ) (request : Request) (inode : InodeId)
      (hi : s.tasks[i]? = some ⟨request, .called⟩) (hinode : request.guarded = some inode)
      (hfree : s.tasks.any (Task.holds inode) = false)
      (hpoisoned : s.poisoned inode = false) :
      Steps root s { s with tasks := s.tasks.set i ⟨request, .locked⟩ }
  | refused (i : ℕ) (request : Request) (inode : InodeId)
      (hi : s.tasks[i]? = some ⟨request, .called⟩) (hinode : request.guarded = some inode)
      (hpoisoned : s.poisoned inode = true) :
      Steps root s
        { s with tasks := s.tasks.set i ⟨request, .returned (.error (poisonedLock inode request))⟩ }
  | proceed (i : ℕ) (env : Surroundings) (clock : ℤ) (request : Request) (phase : Phase)
      (outcome : Outcome) (hi : s.tasks[i]? = some ⟨request, phase⟩)
      (hadvance : advance env clock s.session s.cache request phase = some outcome) :
      Steps root s
        { session := outcome.session
          cache := outcome.cache
          poisoned := poison s.poisoned request outcome.poisons
          tasks := s.tasks.set i ⟨request, outcome.phase⟩ }
  | cache (call : ℕ) (action : Cache.Action) (cache : Cache.State)
      (h : Cache.step root s.cache (.act call action) = some cache) :
      Steps root s { s with cache := cache }

theorem lock_cases {root : PathBuf} {s s' : State} {i : ℕ}
    (h : step root s (.lock i) = some s') :
    ∃ request inode, s.tasks[i]? = some ⟨request, .called⟩ ∧ request.guarded = some inode ∧
      s.tasks.any (Task.holds inode) = false ∧
      s' = { s with
        tasks := s.tasks.set i ⟨request, if s.poisoned inode then
          .returned (.error (poisonedLock inode request)) else .locked⟩ } := by
  rw [step] at h
  split at h
  · next request hi =>
      split at h
      · cases h
      · next inode hinode =>
          split at h
          · cases h
          · next hfree =>
              cases h
              exact ⟨request, inode, hi, hinode, by simpa using hfree, rfl⟩
  · cases h

theorem proceed_cases {root : PathBuf} {s s' : State} {i : ℕ} {env : Surroundings} {clock : ℤ}
    (h : step root s (.proceed i env clock) = some s') :
    ∃ request phase outcome, s.tasks[i]? = some ⟨request, phase⟩ ∧
      advance env clock s.session s.cache request phase = some outcome ∧
      s' =
        { session := outcome.session
          cache := outcome.cache
          poisoned := poison s.poisoned request outcome.poisons
          tasks := s.tasks.set i ⟨request, outcome.phase⟩ } := by
  rw [step] at h
  split at h
  · cases h
  · next task hi =>
      split at h
      · cases h
      · next outcome hadvance =>
          cases h
          exact ⟨task.request, task.phase, outcome, hi, hadvance, rfl⟩

theorem cache_cases {root : PathBuf} {s s' : State} {call : ℕ} {action : Cache.Action}
    (h : step root s (.cache call action) = some s') :
    ∃ cache, Cache.step root s.cache (.act call action) = some cache ∧
      s' = { s with cache := cache } := by
  rw [step] at h
  split at h
  · cases h
  · next cache hcache =>
      cases h
      exact ⟨cache, hcache, rfl⟩

theorem steps_of_step {root : PathBuf} {s s' : State} {move : Move}
    (h : step root s move = some s') : Steps root s s' := by
  cases move with
  | call request =>
      cases h
      exact .call request
  | lock i =>
      obtain ⟨request, inode, hi, hinode, hfree, rfl⟩ := lock_cases h
      cases hpoisoned : s.poisoned inode with
      | true => exact .refused i request inode hi hinode hpoisoned
      | false => exact .lock i request inode hi hinode hfree hpoisoned
  | proceed i env clock =>
      obtain ⟨request, phase, outcome, hi, hadvance, rfl⟩ := proceed_cases h
      exact .proceed i env clock request phase outcome hi hadvance
  | cache call action =>
      obtain ⟨cache, hcache, rfl⟩ := cache_cases h
      exact .cache call action cache hcache

/-! ### Locks and calls of the cache -/

def Task.awaits (call : ℕ) (task : Task) : Bool :=
  task.phase.awaited = some call

/-- One call at a time holds the lock of an inode, a call of the cache was made by one call that
waits for it, and the cache keeps its own invariants. -/
structure Orderly (root : PathBuf) (initial : PathBuf → Option Bytes) (s : State) : Prop where
  cache : Cache.Reporting root initial s.cache
  exclusive : ∀ inode, s.tasks.countP (Task.holds inode) ≤ 1
  waiting : ∀ call, s.tasks.countP (Task.awaits call) ≤ 1
  made : ∀ task ∈ s.tasks, ∀ call, task.phase.awaited = some call →
    call < s.cache.threads.length

section Advances

variable {env : Surroundings} {clock : ℤ} {session : Session} {cache : Cache.State}
  {request : Request} {phase : Phase} {outcome : Outcome}

omit [Sha256] [Prost] in
theorem Advances.guarding (h : Advances env clock session cache request phase outcome)
    (hguarding : outcome.phase.guarding = true) : phase.guarding = true := by
  cases h with
  | settled => cases hguarding
  | overlaid => cases hguarding
  | present => cases hguarding
  | crashed => cases hguarding
  | rejected => cases hguarding
  | recorded => cases hguarding
  | counted => cases hguarding
  | closed => cases hguarding
  | _ => rfl

omit [Sha256] [Prost] in
theorem Advances.of_poisons (h : Advances env clock session cache request phase outcome)
    (hpoisons : outcome.poisons = true) :
    outcome.phase = .panicked ∧ ∃ call, phase.awaited = some call := by
  cases h with
  | crashed _ _ call hphase => exact ⟨rfl, call, hphase⟩
  | _ => cases hpoisons

omit [Uuid] [Sha256] [Prost] in
theorem guarding_of_awaited {call : ℕ} (h : phase.awaited = some call) :
    phase.guarding = true := by
  cases phase <;> first | rfl | cases h

omit [Sha256] [Prost] in
theorem Advances.cache_cases (h : Advances env clock session cache request phase outcome) :
    (outcome.cache = cache ∧ outcome.phase.awaited = none) ∨
      ∃ digest request, outcome.cache = begun cache digest request ∧
        outcome.phase.awaited = some cache.threads.length := by
  cases h with
  | requested request inode hinode digest => exact .inr ⟨digest, .readBlob, rfl, rfl⟩
  | asked inode offset size digest => exact .inr ⟨digest, .readRange offset size, rfl, rfl⟩
  | _ => exact .inl ⟨rfl, rfl⟩

end Advances

omit [Uuid] [Prost] in
theorem reporting_begun {root : PathBuf} {initial : PathBuf → Option Bytes}
    {cache : Cache.State} (h : Cache.Reporting root initial cache) (digest : Digest)
    (request : Cache.Request) : Cache.Reporting root initial (begun cache digest request) := by
  have hstep : Cache.step root cache (.spawn (digest, request)) =
      some (begun cache digest request) := rfl
  exact h.step hstep

omit [Uuid] [Sha256] [Prost] in
theorem countP_holds_eq_zero {inode : InodeId} {tasks : List Task}
    (h : tasks.any (Task.holds inode) = false) : tasks.countP (Task.holds inode) = 0 :=
  List.countP_eq_zero.mpr fun task htask => List.any_eq_false.mp h task htask

omit [Uuid] [Sha256] [Prost] in
theorem orderly_start (root : PathBuf) (rootDigest : Digest) (store : SessionStore)
    (files : PathBuf → Option Bytes) : Orderly root files (start rootDigest store files) where
  cache := Cache.reporting_start root files
  exclusive := fun _ => Nat.zero_le 1
  waiting := fun _ => Nat.zero_le 1
  made := fun task htask => by cases htask

omit [Uuid] [Sha256] [Prost] in
theorem Orderly.set {root : PathBuf} {initial : PathBuf → Option Bytes} {s : State}
    (h : Orderly root initial s) {i : ℕ} {task task' : Task} (hi : s.tasks[i]? = some task)
    (hholds : ∀ inode, task'.holds inode = true → task.holds inode = true)
    (hawaited : task'.phase.awaited = none) {session : Session} {poisoned : InodeId → Bool} :
    Orderly root initial
      { session := session, cache := s.cache, poisoned := poisoned,
        tasks := s.tasks.set i task' } where
  cache := h.cache
  exclusive := fun inode => (Pool.countP_set_le hi (hholds inode)).trans (h.exclusive inode)
  waiting := by
    intro call
    refine (Pool.countP_set_le hi fun hawaits => ?_).trans (h.waiting call)
    rw [Task.awaits, hawaited] at hawaits
    cases hawaits
  made := by
    intro other hother call hcall
    obtain hold | rfl := List.mem_or_eq_of_mem_set hother
    · exact h.made other hold call hcall
    · rw [hawaited] at hcall
      cases hcall

omit [Uuid] [Prost] in
theorem Orderly.begin {root : PathBuf} {initial : PathBuf → Option Bytes} {s : State}
    (h : Orderly root initial s) {i : ℕ} {task task' : Task} (hi : s.tasks[i]? = some task)
    (hholds : ∀ inode, task'.holds inode = true → task.holds inode = true)
    (hawaited : task'.phase.awaited = some s.cache.threads.length) (digest : Digest)
    (request : Cache.Request) {session : Session} {poisoned : InodeId → Bool} :
    Orderly root initial
      { session := session, cache := begun s.cache digest request, poisoned := poisoned,
        tasks := s.tasks.set i task' } where
  cache := reporting_begun h.cache digest request
  exclusive := fun inode => (Pool.countP_set_le hi (hholds inode)).trans (h.exclusive inode)
  waiting := by
    intro call
    by_cases hcall : call = s.cache.threads.length
    · -- nothing waited for a call that had not begun
      have hnone : s.tasks.countP (Task.awaits call) = 0 := by
        refine List.countP_eq_zero.mpr fun other hother hawaits => ?_
        have hlt := h.made other hother call (of_decide_eq_true hawaits)
        omega
      have hle := Pool.countP_set_le_succ (p := Task.awaits call) hi task'
      dsimp only
      omega
    · refine (Pool.countP_set_le hi fun hawaits => ?_).trans (h.waiting call)
      have heq := of_decide_eq_true hawaits
      rw [hawaited, Option.some.injEq] at heq
      exact absurd heq.symm hcall
  made := by
    intro other hother call hcall
    have hlength : (begun s.cache digest request).threads.length =
        s.cache.threads.length + 1 := by
      rw [begun, List.length_append, List.length_singleton]
    dsimp only
    rw [hlength]
    obtain hold | rfl := List.mem_or_eq_of_mem_set hother
    · exact (h.made other hold call hcall).trans (Nat.lt_succ_self _)
    · rw [hawaited, Option.some.injEq] at hcall
      omega

theorem Orderly.step {root : PathBuf} {initial : PathBuf → Option Bytes} {s s' : State}
    (h : Orderly root initial s) (hstep : Steps root s s') : Orderly root initial s' := by
  cases hstep with
  | call request =>
      refine ⟨h.cache, fun inode => ?_, fun call => ?_, fun task htask call hcall => ?_⟩
      · have hnew : Task.holds inode ⟨request, .called⟩ = false := by
          simp [Task.holds, Phase.guarding]
        simpa [List.countP_append, hnew] using h.exclusive inode
      · have hnew : Task.awaits call ⟨request, .called⟩ = false := by
          simp [Task.awaits, Phase.awaited]
        simpa [List.countP_append, hnew] using h.waiting call
      · obtain hold | hnew := List.mem_append.mp htask
        · exact h.made task hold call hcall
        · rw [List.mem_singleton.mp hnew] at hcall
          cases hcall
  | lock i request inode hi hinode hfree hpoisoned =>
      refine ⟨h.cache, fun other => ?_, fun call => ?_, fun task htask call hcall => ?_⟩
      · by_cases hother : other = inode
        · have hnone := countP_holds_eq_zero hfree
          have hle := Pool.countP_set_le_succ (p := Task.holds other) hi ⟨request, .locked⟩
          rw [← hother] at hnone
          dsimp only
          omega
        · refine (Pool.countP_set_le hi fun hholds => ?_).trans (h.exclusive other)
          have hguarded := (of_decide_eq_true hholds).1
          rw [hinode, Option.some.injEq] at hguarded
          exact absurd hguarded.symm hother
      · refine (Pool.countP_set_le hi fun hawaits => ?_).trans (h.waiting call)
        cases of_decide_eq_true hawaits
      · obtain hold | rfl := List.mem_or_eq_of_mem_set htask
        · exact h.made task hold call hcall
        · cases hcall
  | refused i request inode hi hinode hpoisoned =>
      refine h.set hi (fun other hholds => ?_) rfl
      cases (of_decide_eq_true hholds).2
  | proceed i env clock request phase outcome hi hadvance =>
      have hadvances := advances_of_advance hadvance
      have hholds : ∀ inode, Task.holds inode ⟨request, outcome.phase⟩ = true →
          Task.holds inode ⟨request, phase⟩ = true := by
        intro inode hholds
        obtain ⟨hguarded, hguarding⟩ := of_decide_eq_true hholds
        exact decide_eq_true ⟨hguarded, hadvances.guarding hguarding⟩
      obtain ⟨hcache, hawaited⟩ | ⟨digest, asked, hcache, hawaited⟩ := hadvances.cache_cases
      · rw [hcache]
        exact h.set hi hholds hawaited
      · rw [hcache]
        exact h.begin hi hholds hawaited digest asked
  | cache call action cache hcache =>
      obtain ⟨arguments, hmove, -⟩ | ⟨j, act, thread, shared, thread', -, -, -, rfl⟩ :=
        Pool.step_cases hcache
      · cases hmove
      · refine ⟨h.cache.step hcache, h.exclusive, h.waiting, ?_⟩
        intro task htask other hother
        dsimp only
        rw [List.length_set]
        exact h.made task htask other hother

end Steps

end System

end Session

end RemoteFs
