import RemoteFs.Home.Ownership
import RemoteFs.Session.Retained

/-!
# The sessions of a home

A daemon opens its session step by step and shares the disk with other daemons. `Running` says
that its session is nevertheless one that `Session.System` can reach on its own, so what is
proved there of every session is true of every session of a home. It also says that the release
of the daemon is recorded as having closed the session exactly when the session was closed.
-/

namespace RemoteFs

open Session (SessionStore SessionMetadata Sqlite Surroundings InodeId)

namespace Home

/-! ### Seeding in steps -/

/-- The failures of SQLite from the transaction that seeds a database on. -/
def afterSchema (sqlite : Sqlite) : Sqlite
  | .openConnection => none
  | .setBusyTimeout => none
  | .setJournalMode => none
  | .enableForeignKeys => none
  | .readSchemaVersion => none
  | .createSchema => none
  | .recordSchemaVersion => none
  | statement => sqlite statement

/-- The steps that open a store make the store that `SessionStore::create` makes at once. -/
theorem create_of_initializeDatabase [Uuid] {path : PathBuf} {sqlite : Sqlite}
    {sessionId : String} {pid : UInt32} {rootDigest : Digest} {mountpoint : PathBuf} {clock : ℤ}
    {store : SessionStore}
    (h : SessionStore.initializeDatabase { databasePath := path, database := .empty } sqlite
      sessionId pid rootDigest mountpoint clock = (.ok (), store)) :
    SessionStore.create (afterSchema sqlite) path sessionId pid rootDigest mountpoint clock =
      .ok store := by
  have hopen : SessionStore.openDatabase (afterSchema sqlite) path = .ok () := rfl
  have hprepare : SessionStore.prepareSchema (afterSchema sqlite) path = .ok () := rfl
  have hseed : SessionStore.initializeDatabase { databasePath := path, database := .empty }
      (afterSchema sqlite) sessionId pid rootDigest mountpoint clock = (.ok (), store) := h
  rw [SessionStore.create, hopen, Result.ok_bind, hprepare, Result.ok_bind]
  dsimp only
  rw [hseed]

/-! ### The end of a session -/

def closeFinished : Daemon.ReleaseEvent → Bool
  | .finished (.close (.ok (.ok ()))) => true
  | _ => false

/-- Whether the release of a daemon is recorded as having closed the session. -/
def Phase.recordsClose : Phase → Bool
  | .serving control _ _ => control.log.any closeFinished
  | _ => false

theorem any_closeFinished_of_step {control control' : Daemon} {action : Daemon.Action}
    (haction : isFinishStep action = false) (h : control.step action = some control') :
    control'.log.any closeFinished = control.log.any closeFinished := by
  have hbegun : ∀ log : List Daemon.ReleaseEvent,
      (log ++ [Daemon.ReleaseEvent.started .unmount]).any closeFinished =
        log.any closeFinished := by
    intro log
    rw [List.any_append]
    exact Bool.or_false _
  cases action with
  | finishStep outcome => cases haction
  | request request =>
      cases h
      obtain hsame | ⟨r, -, -, hsent⟩ := control.handle_state request
      · rw [hsame]
      · rw [hsent]
        cases control.trySend r <;> rfl
  | signal kind =>
      cases h
      rfl
  | serverExits | cloneService | dropClone | selectResources | selectSignal | selectServer
  | detach | receive | stopServer =>
      simp only [Daemon.step, Daemon.detachStep, Daemon.receiveStep, Daemon.beginRelease] at h
      repeat' split at h
      all_goals cases h
      all_goals first | rfl | exact hbegun _

theorem closeFinished_finished (outcome : Daemon.ReleaseOutcome) :
    closeFinished (.finished outcome) = true ↔ outcome = .close (.ok (.ok ())) := by
  unfold closeFinished
  split
  · next heq =>
      cases heq
      exact iff_of_true rfl rfl
  · next hne => exact iff_of_false Bool.false_ne_true fun heq => hne (congrArg _ heq)

theorem any_closeFinished_of_finishStep {control control' : Daemon}
    {outcome : Daemon.ReleaseOutcome} (h : control.step (.finishStep outcome) = some control') :
    control'.log.any closeFinished = true ↔
      control.log.any closeFinished = true ∨ outcome = .close (.ok (.ok ())) := by
  simp only [Daemon.step] at h
  split at h
  · next step resources finishedServer hserve =>
      split at h
      · have hlog : control'.log.any closeFinished =
            (control.log.any closeFinished || closeFinished (.finished outcome)) := by
          rw [Option.some.injEq] at h
          rw [← h]
          unfold Daemon.afterRelease
          split
          · simp [closeFinished]
          · simp
        rw [hlog, Bool.or_eq_true, closeFinished_finished]
      · cases h
  · cases h

/-! ### The session of a daemon -/

section Attached

variable {contents : Contents} {database : ℕ} {session : Session.System.State}

/-- A session that is the one on disk reads there what it knows. -/
theorem attach_eq {file : DatabaseFile} (hfile : contents.databases[database]? = some file)
    (htables : file.tables = some session.session.store.database)
    (hcache : contents.cacheFiles = session.cache.shared.files) :
    attach contents database session = session := by
  rw [attach, hfile, hcache, Option.bind_some, htables]
  rfl

variable [Uuid]

def facts (arguments : Arguments) (text : String) : SessionMetadata where
  daemonPid := arguments.pid
  state := .active
  rootDigest := arguments.rootDigest
  mountpoint := PathBuf.ofText text

variable [Sha256] [Prost]

/-- The session of a daemon is one that can be reached without the others, its row says what
the daemon was started with, and every call that closes it has returned. -/
structure Opened (home : PathBuf) (arguments : Arguments) (session : Session.System.State) :
    Prop where
  reached : Session.System.Reached arguments.rootDigest (SessionLayout.new home).cache session
  stored : ∃ text, arguments.mountpoint.toStr = some text ∧
    Session.System.Stored (facts arguments text) session
  closing : ∀ task ∈ session.tasks, task.request = .close →
    ∃ result, task.phase = .returned result

variable {home : PathBuf} {arguments : Arguments}

theorem opened_start {path : PathBuf} {sqlite : Sqlite} {clock : ℤ} {store : SessionStore}
    (h : SessionStore.initializeDatabase { databasePath := path, database := .empty } sqlite
      arguments.sessionId arguments.pid arguments.rootDigest arguments.mountpoint clock =
        (.ok (), store)) (files : PathBuf → Option Bytes) :
    Opened home arguments (Session.System.start arguments.rootDigest store files) := by
  obtain ⟨row, text, hrow, htext, hvalid⟩ := Session.initializeDatabase_metadata h
  refine ⟨?_, ⟨text, htext, .active row hrow hvalid rfl⟩, fun task htask => by cases htask⟩
  exact ⟨_, _, _, _, _, _, store, files, [], create_of_initializeDatabase h, rfl⟩

theorem Opened.stored_step (h : Opened home arguments session)
    {move : Session.System.Move} {session' : Session.System.State}
    (hstep : Session.System.step (SessionLayout.new home).cache session move = some session') :
    ∃ text, arguments.mountpoint.toStr = some text ∧
      Session.System.Stored (facts arguments text) session' := by
  obtain ⟨text, htext, hstored⟩ := h.stored
  obtain ⟨-, ⟨ns, haccounted⟩, -⟩ := Session.System.reached_accounted h.reached
  exact ⟨text, htext, hstored.step haccounted.holds hstep⟩

theorem Opened.moved (h : Opened home arguments session) {move : Session.System.Move}
    (hmove : isClose move = false) {session' : Session.System.State}
    (hstep : Session.System.step (SessionLayout.new home).cache session move = some session') :
    Opened home arguments session' ∧
      session'.tasks.countP Session.System.Task.closed =
        session.tasks.countP Session.System.Task.closed := by
  have hreached := h.reached.step hstep
  have hstored := h.stored_step hstep
  suffices htasks : (∀ task ∈ session'.tasks, task.request = .close →
        ∃ result, task.phase = .returned result) ∧
      session'.tasks.countP Session.System.Task.closed =
        session.tasks.countP Session.System.Task.closed from
    ⟨⟨hreached, hstored, htasks.1⟩, htasks.2⟩
  have hset : ∀ {i : ℕ} {task task' : Session.System.Task}, session.tasks[i]? = some task →
      task'.request ≠ .close → task.closed = false → task'.closed = false →
      (∀ other ∈ session.tasks.set i task', other.request = .close →
        ∃ result, other.phase = .returned result) ∧
      (session.tasks.set i task').countP Session.System.Task.closed =
        session.tasks.countP Session.System.Task.closed := by
    intro i task task' hi hne hopen hopen'
    refine ⟨fun other hother hclose => ?_, Pool.countP_set_eq hi (hopen'.trans hopen.symm)⟩
    obtain hold | rfl := List.mem_or_eq_of_mem_set hother
    · exact h.closing other hold hclose
    · exact absurd hclose hne
  cases move with
  | call request =>
      cases hstep
      refine ⟨fun task htask hclose => ?_, ?_⟩
      · obtain hold | hnew := List.mem_append.mp htask
        · exact h.closing task hold hclose
        · rw [List.mem_singleton.mp hnew] at hclose
          dsimp only at hclose
          rw [hclose] at hmove
          cases hmove
      · rw [List.countP_append, List.countP_singleton]
        rfl
  | lock i =>
      rw [Session.System.step] at hstep
      split at hstep
      · next request hi =>
          split at hstep
          · cases hstep
          · next inode hinode =>
              split at hstep
              · cases hstep
              · cases hstep
                refine hset hi (fun hclose => ?_) rfl ?_
                · dsimp only at hclose
                  rw [hclose] at hinode
                  cases hinode
                · split <;> rfl
      · cases hstep
  | proceed i env clock =>
      rw [Session.System.step] at hstep
      split at hstep
      · cases hstep
      · next task hi =>
          split at hstep
          · cases hstep
          · next outcome hadvance =>
              cases hstep
              have hopen := Session.System.not_closed_of_advance hadvance
              have hne : task.request ≠ .close := by
                intro hclose
                obtain ⟨result, hphase⟩ := h.closing task (List.mem_of_getElem? hi) hclose
                rw [hclose, hphase] at hadvance
                cases hadvance
              exact hset hi hne hopen (Session.System.closed_eq_false_of_advance hne hadvance)
  | cache call action =>
      rw [Session.System.step] at hstep
      split at hstep
      · cases hstep
      · cases hstep
        exact ⟨h.closing, rfl⟩

theorem Opened.closed (h : Opened home arguments session) {called session' : Session.System.State}
    {env : Surroundings} {clock : ℤ}
    {result : Except Session.SessionError Session.System.Answer}
    (hcall : Session.System.step (SessionLayout.new home).cache session (.call .close) =
      some called)
    (hclose : Session.System.step (SessionLayout.new home).cache called
      (.proceed session.tasks.length env clock) = some session')
    (hphase : session'.tasks[session.tasks.length]?.map Session.System.Task.phase =
      some (.returned result)) :
    Opened home arguments session' ∧
      (session'.tasks.countP Session.System.Task.closed = 1 ↔
        session.tasks.countP Session.System.Task.closed = 1 ∨
          result.map (fun _ => ()) = .ok ()) := by
  obtain ⟨text, htext, hstored⟩ := h.stored
  obtain ⟨-, ⟨ns, haccounted⟩, -⟩ := Session.System.reached_accounted h.reached
  have hstoredCalled := hstored.step haccounted.holds hcall
  have hreachedCalled := h.reached.step hcall
  obtain ⟨-, ⟨ns', haccounted'⟩, -⟩ := Session.System.reached_accounted hreachedCalled
  have hstored' := hstoredCalled.step haccounted'.holds hclose
  have hreached' := hreachedCalled.step hclose
  cases hcall
  rw [Session.System.step] at hclose
  dsimp only at hclose
  rw [List.getElem?_concat_length] at hclose
  dsimp only at hclose
  rw [Session.System.advance_close] at hclose
  cases hclose
  have hset : ∀ task : Session.System.Task, (session.tasks ++
      [(⟨.close, .called⟩ : Session.System.Task)]).set session.tasks.length task =
        session.tasks ++ [task] := by
    intro task
    rw [List.set_append_right _ _ le_rfl, Nat.sub_self]
    rfl
  simp only [Session.System.Outcome.unpoisoned, hset] at hphase hstored' hreached' ⊢
  rw [List.getElem?_concat_length, Option.map_some, Option.some.injEq,
    Session.System.Phase.returned.injEq] at hphase
  refine ⟨⟨hreached', ⟨text, htext, hstored'⟩, fun task htask hclose => ?_⟩, ?_⟩
  · obtain hold | hnew := List.mem_append.mp htask
    · exact h.closing task hold hclose
    · rw [List.mem_singleton.mp hnew]
      exact ⟨_, rfl⟩
  · have hle : ∀ {s : Session.System.State}, Session.System.Stored (facts arguments text) s →
        s.tasks.countP Session.System.Task.closed ≤ 1 := by
      intro s hs
      cases hs with
      | active row hrow hvalid hnone => omega
      | closed row hrow hvalid hone => omega
    have hcount := hle hstored'
    dsimp only at hcount ⊢
    rw [List.countP_append, List.countP_singleton] at hcount ⊢
    rw [← hphase]
    cases hresult : (session.session.store.close env.loadSqlite clock).1 with
    | error e =>
        refine ⟨fun hone => .inl hone, fun hor => hor.elim id fun heq => ?_⟩
        cases heq
    | ok value =>
        rw [hresult] at hcount
        have hclosed : Session.System.Task.closed ⟨.close, .returned
            ((Except.ok value : Except Session.SessionError Unit).map fun _ =>
              Session.System.Answer.closed)⟩ = true := rfl
        rw [hclosed, if_pos rfl] at hcount ⊢
        refine ⟨fun _ => .inr rfl, fun _ => ?_⟩
        omega

end Attached

/-! ### Every daemon of a home -/

section Running

variable [Uuid] [Sha256] [Prost] {home : PathBuf} {index : ℕ} {lockFree : Bool}
  {arguments : Arguments} {contents contents' : Contents} {phase phase' : Phase}

/-- What is known of a daemon whatever the others do: its session, what its release has
recorded, and where its resources are. -/
structure Running (home : PathBuf) (arguments : Arguments) (phase : Phase) : Prop where
  opened : ∀ database session, phase.session = some (database, session) →
    Opened home arguments session ∧ (phase.recordsClose = true ↔
      session.tasks.countP Session.System.Task.closed = 1)
  owned : ∀ control database session, phase = .serving control database session →
    Daemon.Owned (arguments.resources home) control

theorem Running.of_session_eq_none (h : phase.session = none) : Running home arguments phase where
  opened := by
    intro database session hphase
    rw [h] at hphase
    cases hphase
  owned := by
    rintro control database session rfl
    cases h

omit [Uuid] [Sha256] [Prost] in
theorem Phase.recordsClose_withSession (phase : Phase) (session : Session.System.State) :
    (phase.withSession session).recordsClose = phase.recordsClose := by
  cases phase <;> rfl

omit [Uuid] [Sha256] [Prost] in
theorem Phase.isClose_of_accepts {phase : Phase} {move : Session.System.Move}
    (h : phase.accepts move = true) : isClose move = false := by
  cases phase with
  | loadRoot =>
      cases move with
      | call request => cases h
      | _ => rfl
  | mountFuse | bindSocket | restrictSocket => simpa [Phase.accepts] using h
  | serving control database session =>
      rw [Phase.accepts, Bool.and_eq_true] at h
      simpa using h.1
  | _ => cases h

theorem Running.same {database : ℕ} {session : Session.System.State}
    (h : Running home arguments phase) (hphase : phase.session = some (database, session))
    (hphase' : phase'.session = some (database, session))
    (hrecords : phase'.recordsClose = phase.recordsClose)
    (howned : ∀ control database session, phase' = .serving control database session →
      Daemon.Owned (arguments.resources home) control) : Running home arguments phase' where
  opened := by
    intro other session' hsession
    rw [hphase'] at hsession
    cases hsession
    obtain ⟨hopened, hiff⟩ := h.opened database session hphase
    exact ⟨hopened, hrecords ▸ hiff⟩
  owned := howned

theorem Running.control {control control' : Daemon} {action : Daemon.Action} {database : ℕ}
    {session : Session.System.State}
    (h : Running home arguments (.serving control database session))
    (hcontrol : control.step action = some control')
    (hrecords : control'.log.any closeFinished = control.log.any closeFinished) :
    Running home arguments (.serving control' database session) := by
  refine h.same rfl rfl hrecords fun other database' session' heq => ?_
  cases heq
  exact Daemon.step_owned action (h.owned control database session rfl) hcontrol

/-- A step of a daemon whose session is the one on disk. -/
theorem Proceeds.running
    (h : Proceeds home index lockFree arguments contents phase contents' phase')
    (hrunning : Running home arguments phase)
    (hattach : ∀ database session, phase.session = some (database, session) →
      phase.holding = true → attach contents database session = session)
    (hseed : ∀ database, phase = .initializeDatabase database →
      contents.databases[database]?.bind DatabaseFile.tables = some .empty) :
    Running home arguments phase' := by
  cases h with
  | initialized database sqlite clock tables store htables hstore =>
      rw [hseed database rfl, Option.some.injEq] at htables
      subst htables
      refine ⟨fun other session hsession => ?_, fun control database session heq => by cases heq⟩
      cases hsession
      exact ⟨opened_start hstore _, iff_of_false Bool.false_ne_true Nat.zero_ne_one⟩
  | logged database session =>
      obtain ⟨hopened, hiff⟩ := hrunning.opened database session rfl
      have hcall : Session.System.step (SessionLayout.new home).cache session
          (.call (.listDirectory InodeId.root)) = some
            { session with
              tasks := session.tasks ++ [⟨.listDirectory InodeId.root, .called⟩] } := rfl
      obtain ⟨hopened', hcount⟩ := hopened.moved rfl hcall
      refine ⟨fun other session' hsession => ?_, fun control database session heq => by cases heq⟩
      cases hsession
      exact ⟨hopened', by rw [hcount]; exact hiff⟩
  | moved _ database session session' move hphase haccepts hstep =>
      rw [hattach database session hphase (Phase.holding_of_accepts haccepts)] at hstep
      obtain ⟨hopened, hiff⟩ := hrunning.opened database session hphase
      obtain ⟨hopened', hcount⟩ := hopened.moved (Phase.isClose_of_accepts haccepts) hstep
      refine ⟨fun other session'' hsession => ?_, fun control database' session'' heq => ?_⟩
      · rw [Phase.session_withSession hphase session'] at hsession
        cases hsession
        rw [Phase.recordsClose_withSession, hcount]
        exact ⟨hopened', hiff⟩
      · cases phase with
        | serving control' =>
            cases heq
            exact hrunning.owned _ _ _ rfl
        | _ => cases heq
  | loaded database session answer htask =>
      exact hrunning.same rfl rfl rfl fun control database session heq => by cases heq
  | mounted database session =>
      exact hrunning.same rfl rfl rfl fun control database session heq => by cases heq
  | bound database session tree htree hsocket =>
      exact hrunning.same rfl rfl rfl fun control database session heq => by cases heq
  | restricted database session =>
      refine hrunning.same rfl rfl rfl fun control database session heq => ?_
      cases heq
      exact Daemon.start_owned _
  | controlled control control' action database session haction hcontrol =>
      refine hrunning.control hcontrol ?_
      obtain hother | ⟨joined, rfl, -⟩ := haction
      · exact any_closeFinished_of_step hother hcontrol
      · rw [Bool.eq_iff_iff, any_closeFinished_of_finishStep hcontrol]
        exact or_iff_left fun heq => by cases heq
  | closeFailed control control' database session source hcloses hcontrol =>
      refine hrunning.control hcontrol ?_
      rw [Bool.eq_iff_iff, any_closeFinished_of_finishStep hcontrol]
      exact or_iff_left fun heq => by cases heq
  | closed control control' database session called session' env clock result hcloses hcall
      hclose hphase hcontrol =>
      rw [hattach database session rfl (keepsSession_of_closes hcloses)] at hcall
      obtain ⟨hopened, hiff⟩ := hrunning.opened database session rfl
      obtain ⟨hopened', hcount⟩ := hopened.closed hcall hclose hphase
      refine ⟨fun other session'' hsession => ?_, fun other database' session'' heq => ?_⟩
      · cases hsession
        refine ⟨hopened', ?_⟩
        rw [Phase.recordsClose, any_closeFinished_of_finishStep hcontrol, hcount]
        refine or_congr hiff ?_
        rw [Daemon.ReleaseOutcome.close.injEq, Except.ok.injEq]
      · cases heq
        exact Daemon.step_owned _ (hrunning.owned control database session rfl) hcontrol
  | socketRemoved control control' database session contents' removed hcontents hcontrol =>
      refine hrunning.control hcontrol ?_
      rw [Bool.eq_iff_iff, any_closeFinished_of_finishStep hcontrol]
      exact or_iff_left fun heq => by cases heq
  | _ => exact .of_session_eq_none rfl

variable {daemons daemons' : Daemons}

omit [Uuid] [Sha256] [Prost] in
theorem Sound.file (h : Sound daemons) {i : ℕ} {process : Process}
    (hi : daemons.threads[i]? = some process) {database : ℕ}
    (hplaced : ∃ file, daemons.shared.contents.databases[database]? = some file ∧
      file.origin = .daemon i) :
    ∃ file, daemons.shared.contents.databases[database]? = some file ∧
      file.origin = .daemon i ∧ Wrote database file process.phase := by
  obtain ⟨file, hfile, horigin⟩ := hplaced
  obtain ⟨maker, hmaker, hwrote⟩ := h.filed database file i hfile horigin
  rw [hi, Option.some.injEq] at hmaker
  exact ⟨file, hfile, horigin, hmaker ▸ hwrote⟩

omit [Uuid] [Sha256] [Prost] in
theorem Sound.attach_eq (h : Sound daemons) {i : ℕ} {process : Process}
    (hi : daemons.threads[i]? = some process) (hholds : process.holds = true) {database : ℕ}
    {session : Session.System.State}
    (hphase : process.phase.session = some (database, session)) :
    attach daemons.shared.contents database session = session := by
  have hhosts := (h.fits i process hi hholds).hosts hphase
  obtain ⟨file, hfile, -, hwrote⟩ := h.file hi hhosts.placed.file
  obtain ⟨-, -, htables⟩ := (wrote_of_session hphase).mp hwrote
  exact Home.attach_eq hfile htables hhosts.cacheFiles

def AllRunning (home : PathBuf) (daemons : Daemons) : Prop :=
  ∀ (i : ℕ) process, daemons.threads[i]? = some process →
    Running home process.arguments process.phase

theorem AllRunning.steps (h : AllRunning home daemons) (hsound : Sound daemons)
    (hsteps : Steps home daemons daemons') : AllRunning home daemons' := by
  cases hsteps with
  | started arguments =>
      intro i process hi
      obtain hold | rfl := Pool.getElem?_append_cases hi
      · exact h i process hold
      · exact .of_session_eq_none rfl
  | homed => exact h
  | proceeded i process contents' phase' hi halive hproceeds =>
      intro j other hj
      obtain ⟨rfl, rfl⟩ | ⟨-, hold⟩ := Pool.getElem?_set_cases hj
      · have hholds := Process.holds_of_alive halive
        refine hproceeds.running (h j process hi) (fun database session hphase hholding => ?_)
          fun database hphase => ?_
        · exact hsound.attach_eq hi (hholds.trans hholding) hphase
        · have hholding : process.holds = true := by
            rw [hholds, hphase]
            rfl
          have hfits := hsound.fits j process hi hholding
          rw [hphase] at hfits
          obtain ⟨file, hfile, -, hwrote⟩ := hsound.file hi hfits.2.file
          rw [hphase] at hwrote
          rw [hfile, Option.bind_some]
          exact hwrote.2.2
      · exact h j other hold
  | ended i process contents' exit hi halive hends =>
      intro j other hj
      obtain ⟨rfl, rfl⟩ | ⟨-, hold⟩ := Pool.getElem?_set_cases hj
      · exact h j process hi
      · exact h j other hold

theorem running_of_reached (h : Reached home daemons) :
    Sound daemons ∧ AllRunning home daemons := by
  obtain ⟨contents, moves, hfound, hrun⟩ := h
  refine Transition.run_invariant (I := fun daemons => Sound daemons ∧ AllRunning home daemons)
    (fun s move s' hinv hstep => ?_) moves (start contents) daemons
    ⟨sound_start hfound, fun i process hi => by cases hi⟩ hrun
  have hsteps := steps_of_step hstep
  exact ⟨hinv.1.steps hsteps, hinv.2.steps hinv.1 hsteps⟩

end Running

end Home

end RemoteFs
