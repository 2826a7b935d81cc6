import RemoteFs.Daemon.Shutdown
import RemoteFs.Home.Process

/-!
# What a step of a daemon can do

`Proceeds` lists the steps after which a daemon goes on, by what they do to the disk and to
the daemon, and `Ends` says what a daemon that ends leaves behind. Invariants are proved by
cases on them. A daemon without the session lock changes nothing on disk, except that it may
create the home and that its late removal of the control socket takes whatever socket is
there.
-/

namespace RemoteFs

open Session (SessionStore Sqlite Surroundings InodeId)

namespace Home

def Contents.withHome (contents : Contents) : Contents :=
  { contents with created := true }

section Steps

variable [Uuid] [Sha256] [Prost]

/-- The steps after which the daemon with an index goes on. -/
inductive Proceeds (home : PathBuf) (index : ℕ) (lockFree : Bool) (arguments : Arguments)
    (contents : Contents) : Phase → Contents → Phase → Prop
  | connected :
      Proceeds home index lockFree arguments contents .connectCas contents .validateMountpoint
  | validated :
      Proceeds home index lockFree arguments contents .validateMountpoint contents .ensureHome
  | ensured :
      Proceeds home index lockFree arguments contents .ensureHome contents.withHome .acquireLock
  | acquired (hfree : lockFree = true) :
      Proceeds home index lockFree arguments contents .acquireLock contents .truncateRecord
  | truncated :
      Proceeds home index lockFree arguments contents .truncateRecord
        { contents with record := none } .writeRecord
  | recorded :
      Proceeds home index lockFree arguments contents .writeRecord
        { contents with record := some arguments.record } .removeTree
  | removed (entry : Entry) :
      Proceeds home index lockFree arguments contents .removeTree
        (contents.mapTree fun tree => tree.remove entry) .removeTree
  | emptied :
      Proceeds home index lockFree arguments contents .removeTree
        { contents with tree := none } .createTree
  | kept (tree : Tree) (htree : contents.tree = some tree) :
      Proceeds home index lockFree arguments contents .createTree contents .createDatabase
  | created :
      Proceeds home index lockFree arguments contents .createTree
        { contents with tree := some .empty } .createDatabase
  | databaseCreated (tree : Tree) (htree : contents.tree = some tree)
      (hnone : tree.database = none) :
      Proceeds home index lockFree arguments contents .createDatabase
        (contents.createDatabase (.daemon index)) .openCache
  | cacheOpened :
      Proceeds home index lockFree arguments contents .openCache contents .openOverlay
  | overlayOpened :
      Proceeds home index lockFree arguments contents .openOverlay
        (contents.mapTree fun tree => { tree with overlay := true }) .openDatabase
  | databaseOpened (database : ℕ) (htree : contents.tree.bind Tree.database = some database) :
      Proceeds home index lockFree arguments contents .openDatabase contents
        (.createSchema database)
  | databaseMissing (tree : Tree) (htree : contents.tree = some tree)
      (hnone : tree.database = none) :
      Proceeds home index lockFree arguments contents .openDatabase
        (contents.createDatabase (.daemon index)) (.createSchema contents.databases.length)
  | schemaCreated (database : ℕ) :
      Proceeds home index lockFree arguments contents (.createSchema database)
        (contents.writeDatabase database fun file =>
          { file with tables := some (file.tables.getD .empty) })
        (.recordVersion database)
  | versionRecorded (database : ℕ) :
      Proceeds home index lockFree arguments contents (.recordVersion database)
        (contents.writeDatabase database fun file =>
          { file with version := if file.version = 0 then schemaVersion else file.version })
        (.initializeDatabase database)
  | initialized (database : ℕ) (sqlite : Sqlite) (clock : ℤ) (tables : Session.Database)
      (store : SessionStore)
      (htables : contents.databases[database]?.bind DatabaseFile.tables = some tables)
      (hstore : SessionStore.initializeDatabase
        { databasePath := (SessionLayout.new home).databasePath, database := tables } sqlite
        arguments.sessionId arguments.pid arguments.rootDigest arguments.mountpoint clock =
          (.ok (), store)) :
      Proceeds home index lockFree arguments contents (.initializeDatabase database)
        (contents.writeDatabase database fun file =>
          { file with tables := some store.database })
        (.initLogging database
          (Session.System.start arguments.rootDigest store contents.cacheFiles))
  | logged (database : ℕ) (session : Session.System.State) :
      Proceeds home index lockFree arguments contents (.initLogging database session)
        { contents with traceLog := some (.daemon index) }
        (.loadRoot database
          { session with
            tasks := session.tasks ++ [⟨.listDirectory InodeId.root, .called⟩] })
  | moved (phase : Phase) (database : ℕ) (session session' : Session.System.State)
      (move : Session.System.Move) (hphase : phase.session = some (database, session))
      (haccepts : phase.accepts move = true)
      (hstep : Session.System.step (SessionLayout.new home).cache
        (attach contents database session) move = some session') :
      Proceeds home index lockFree arguments contents phase
        (deposit contents database session') (phase.withSession session')
  | loaded (database : ℕ) (session : Session.System.State)
      (answer : Session.System.Answer)
      (htask : session.tasks.head?.map Session.System.Task.phase = some (.returned (.ok answer))) :
      Proceeds home index lockFree arguments contents (.loadRoot database session) contents
        (.mountFuse database session)
  | mounted (database : ℕ) (session : Session.System.State) :
      Proceeds home index lockFree arguments contents (.mountFuse database session) contents
        (.bindSocket database session)
  | bound (database : ℕ) (session : Session.System.State) (tree : Tree)
      (htree : contents.tree = some tree) (hsocket : tree.socket = none) :
      Proceeds home index lockFree arguments contents (.bindSocket database session)
        (contents.mapTree fun tree => { tree with socket := some (.daemon index) })
        (.restrictSocket database session)
  | restricted (database : ℕ) (session : Session.System.State) :
      Proceeds home index lockFree arguments contents (.restrictSocket database session) contents
        (.serving (.start (arguments.resources home)) database session)
  | controlled (control control' : Daemon) (action : Daemon.Action) (database : ℕ)
      (session : Session.System.State)
      (haction : isFinishStep action = false ∨ ∃ joined, action = .finishStep (.unmount joined) ∧
        session.tasks.all (fun task => task.phase.finished) = true)
      (hcontrol : control.step action = some control') :
      Proceeds home index lockFree arguments contents (.serving control database session)
        contents (.serving control' database session)
  | closeFailed (control control' : Daemon) (database : ℕ) (session : Session.System.State)
      (source : Daemon.JoinError) (hcloses : closes control.serve = true)
      (hcontrol : control.step (.finishStep (.close (.error source))) = some control') :
      Proceeds home index lockFree arguments contents (.serving control database session)
        contents (.serving control' database session)
  | closed (control control' : Daemon) (database : ℕ) (session called session' :
        Session.System.State) (env : Surroundings) (clock : ℤ)
      (result : Except Session.SessionError Session.System.Answer)
      (hcloses : closes control.serve = true)
      (hcall : Session.System.step (SessionLayout.new home).cache
        (attach contents database session) (.call .close) = some called)
      (hclose : Session.System.step (SessionLayout.new home).cache called
        (.proceed session.tasks.length env clock) = some session')
      (hphase : session'.tasks[session.tasks.length]?.map Session.System.Task.phase =
        some (.returned result))
      (hcontrol : control.step (.finishStep (.close (.ok (result.map fun _ => ())))) =
        some control') :
      Proceeds home index lockFree arguments contents (.serving control database session)
        (deposit contents database session') (.serving control' database session')
  | socketRemoved (control control' : Daemon) (database : ℕ) (session : Session.System.State)
      (contents' : Contents) (removed : Except (Daemon.IoErrorKind × IoError) Unit)
      (hcontents : contents' = contents ∨ contents' = contents.dropSocket)
      (hcontrol : control.step (.finishStep (.removeSocket removed)) = some control') :
      Proceeds home index lockFree arguments contents (.serving control database session)
        contents' (.serving control' database session)

/-- What a daemon that ends leaves behind: the database files and the cache as they are, and
a tree that still names the same database. Without the lock it leaves everything, and may
have created the home. A daemon that was not killed and reports no failure has served. -/
structure Ends (contents : Contents) (phase : Phase) (contents' : Contents) (exit : Exit) :
    Prop where
  databases : contents'.databases = contents.databases
  cacheFiles : contents'.cacheFiles = contents.cacheFiles
  created : contents.created = true → contents'.created = true
  tree : contents'.tree.map Tree.database = contents.tree.map Tree.database
  unlocked : phase.holding = false → contents' = contents ∨ contents' = contents.withHome
  exited : (∃ error, exit = .failed error) ∨ exit = .killed ∨
    ∃ control database session, phase = .serving control database session ∧
      afterServe control.serve = some exit

omit [Uuid] [Sha256] [Prost] in
theorem Ends.failed (contents : Contents) (phase : Phase) (error : DaemonError) :
    Ends contents phase contents (.failed error) :=
  ⟨rfl, rfl, id, rfl, fun _ => .inl rfl, .inl ⟨error, rfl⟩⟩

omit [Uuid] [Sha256] [Prost] in
theorem Ends.database {contents contents' : Contents} {phase : Phase} {exit : Exit}
    (h : Ends contents phase contents' exit) :
    contents'.tree.bind Tree.database = contents.tree.bind Tree.database := by
  have hjoin : ∀ contents : Contents, contents.tree.bind Tree.database =
      (contents.tree.map Tree.database).join := by
    intro contents
    cases contents.tree <;> rfl
  rw [hjoin, hjoin, h.tree]

section Inversion

variable {home : PathBuf} {index : ℕ} {lockFree : Bool} {arguments : Arguments}
  {contents contents' : Contents} {phase : Phase}

/-- What `advance` answers is one of the steps, or an end. -/
def Answered (home : PathBuf) (index : ℕ) (lockFree : Bool) (arguments : Arguments)
    (contents : Contents) (phase : Phase) (outcome : Outcome) : Prop :=
  match outcome with
  | (contents', .ok phase') =>
      Proceeds home index lockFree arguments contents phase contents' phase'
  | (contents', .error exit) => Ends contents phase contents' exit

theorem answered_validateMountpoint (metadata : Except IoError Bool) :
    Answered home index lockFree arguments contents .validateMountpoint
      (validateMountpoint arguments contents metadata) := by
  unfold validateMountpoint
  split
  · exact .failed _ _ _
  · exact .failed _ _ _
  · exact .validated

theorem answered_ensureWritableHome (failure : Option HomeFailure) :
    Answered home index lockFree arguments contents .ensureHome
      (ensureWritableHome home arguments contents failure) := by
  unfold ensureWritableHome
  split
  · next hcreated =>
      have hsame : contents.withHome = contents := by
        rw [Contents.withHome, ← hcreated]
      have hstep : Proceeds home index lockFree arguments contents .ensureHome contents.withHome
          .acquireLock := .ensured
      rw [hsame] at hstep
      exact hstep
  · split
    · exact .failed _ _ _
    · exact ⟨rfl, rfl, fun _ => rfl, rfl, fun _ => .inr rfl, .inl ⟨_, rfl⟩⟩
    · exact .ensured

theorem answered_acquire (failure : Option LockFailure) :
    Answered home index lockFree arguments contents .acquireLock
      (acquire home arguments contents lockFree failure) := by
  unfold acquire
  dsimp only
  split
  · exact .failed _ _ _
  · exact .failed _ _ _
  · split
    · next hfree => exact .acquired hfree.1
    · exact .failed _ _ _

theorem answered_truncateRecord (failure : Option IoError) :
    Answered home index lockFree arguments contents .truncateRecord
      (truncateRecord home arguments contents failure) := by
  unfold truncateRecord
  split
  · exact .failed _ _ _
  · exact .truncated

theorem answered_writeRecord (failure : Option RecordFailure) :
    Answered home index lockFree arguments contents .writeRecord
      (writeRecord home arguments contents failure) := by
  unfold writeRecord
  split
  · exact .failed _ _ _
  · exact .failed _ _ _
  · exact ⟨rfl, rfl, id, rfl, (fun hlock => by cases hlock), .inl ⟨_, rfl⟩⟩
  · exact .recorded

theorem answered_removeEntry {entry : Entry} {outcome : Outcome}
    (h : removeEntry contents entry = some outcome) :
    Answered home index lockFree arguments contents .removeTree outcome := by
  rw [removeEntry] at h
  split at h
  · split at h
    · cases h
      exact .removed entry
    · cases h
  · cases h

theorem answered_removeIfPresent {failure : Option IoError} {outcome : Outcome}
    (h : removeIfPresent home arguments contents failure = some outcome) :
    Answered home index lockFree arguments contents .removeTree outcome := by
  unfold removeIfPresent at h
  split at h
  · cases h
    exact .failed _ _ _
  · split at h
    · cases h
      exact .emptied
    · cases h

theorem answered_createDirIfAbsent (failure : Option IoError) :
    Answered home index lockFree arguments contents .createTree
      (createDirIfAbsent home arguments contents failure) := by
  unfold createDirIfAbsent
  split
  · next tree htree => exact .kept tree htree
  · exact .failed _ _ _
  · exact .created

theorem answered_createEmptyFile (failure : Option IoError) :
    Answered home index lockFree arguments contents .createDatabase
      (createEmptyFile home arguments contents index failure) := by
  unfold createEmptyFile
  split
  · exact .failed _ _ _
  · exact .failed _ _ _
  · next tree htree =>
      split
      · exact .failed _ _ _
      · next hnone => exact .databaseCreated tree htree (by simpa using hnone)

theorem answered_openCache (failure : Option IoError) :
    Answered home index lockFree arguments contents .openCache
      (openCache home arguments contents failure) := by
  unfold openCache
  split
  · exact .failed _ _ _
  · exact .cacheOpened

theorem answered_openOverlay (failure : Option (OverlayDirectory × IoError)) :
    Answered home index lockFree arguments contents .openOverlay
      (openOverlay home arguments contents failure) := by
  unfold openOverlay
  dsimp only
  split
  · next directory source =>
      have hmade : ∀ error, Ends contents .openOverlay
          (contents.mapTree fun tree => { tree with overlay := true }) (.failed error) := by
        intro error
        refine ⟨rfl, rfl, id, ?_, (fun hlock => by cases hlock), .inl ⟨error, rfl⟩⟩
        rw [Contents.mapTree, Option.map_map]
        rfl
      by_cases hroot : directory = .root
      · rw [if_pos hroot]
        exact .failed _ _ _
      · rw [if_neg hroot]
        exact hmade _
  · exact .overlayOpened

theorem answered_openDatabase (sqlite : Sqlite) :
    Answered home index lockFree arguments contents .openDatabase
      (openDatabase home arguments contents index sqlite) := by
  unfold openDatabase
  dsimp only
  split
  · exact .failed _ _ _
  · exact .failed _ _ _
  · next tree _ htree =>
      split
      · next database hdatabase =>
          exact .databaseOpened database (by rw [htree, Option.bind_some, hdatabase])
      · next hnone => exact .databaseMissing tree htree hnone

theorem answered_createSchema (database : ℕ) (sqlite : Sqlite) :
    Answered home index lockFree arguments contents (.createSchema database)
      (createSchema home arguments contents database sqlite) := by
  unfold createSchema
  dsimp only
  split
  · exact .failed _ _ _
  · exact .schemaCreated database

theorem answered_recordVersion (database : ℕ) (sqlite : Sqlite) :
    Answered home index lockFree arguments contents (.recordVersion database)
      (recordVersion home arguments contents database sqlite) := by
  unfold recordVersion
  dsimp only
  split
  · exact .failed _ _ _
  · exact .versionRecorded database

theorem answered_initializeDatabase (database : ℕ) (sqlite : Sqlite) (clock : ℤ) :
    Answered home index lockFree arguments contents (.initializeDatabase database)
      (initializeDatabase home arguments contents database sqlite clock) := by
  unfold initializeDatabase
  split
  · exact .failed _ _ _
  · next tables htables =>
      dsimp only
      split
      · exact .failed _ _ _
      · next store hstore => exact .initialized database sqlite clock tables store htables hstore

theorem answered_initDaemon (database : ℕ) (session : Session.System.State)
    (failure : Option LoggingError) :
    Answered home index lockFree arguments contents (.initLogging database session)
      (initDaemon home contents database session index failure) := by
  unfold initDaemon
  split
  · exact .failed _ _ _
  · exact ⟨rfl, rfl, id, rfl, (fun hlock => by cases hlock), .inl ⟨_, rfl⟩⟩
  · exact .logged database session

theorem answered_inSession {move : Session.System.Move} {outcome : Outcome}
    (h : inSession home contents move phase = some outcome) :
    Answered home index lockFree arguments contents phase outcome := by
  rw [inSession] at h
  split at h
  · cases h
  · next database session hphase =>
      split at h
      · next haccepts =>
          obtain ⟨next, hnext, rfl⟩ := Option.map_eq_some_iff.mp h
          obtain ⟨session', hstep, rfl⟩ := Option.map_eq_some_iff.mp hnext
          exact .moved phase database session session' move hphase haccepts hstep
      · cases h

theorem answered_rootLoaded {database : ℕ} {session : Session.System.State} {outcome : Outcome}
    (h : rootLoaded contents database session = some outcome) :
    Answered home index lockFree arguments contents (.loadRoot database session) outcome := by
  rw [rootLoaded] at h
  split at h
  · next answer htask =>
      cases h
      exact .loaded database session answer htask
  · cases h
    exact .failed _ _ _
  · cases h
    exact .failed _ _ _
  · cases h

theorem answered_mountFuse (database : ℕ) (session : Session.System.State)
    (failure : Option IoError) :
    Answered home index lockFree arguments contents (.mountFuse database session)
      (mountFuse arguments contents database session failure) := by
  unfold mountFuse
  split
  · exact .failed _ _ _
  · exact .mounted database session

theorem answered_bindSocket (database : ℕ) (session : Session.System.State)
    (failure : Option IoError) :
    Answered home index lockFree arguments contents (.bindSocket database session)
      (bindSocket home contents database session index failure) := by
  unfold bindSocket
  split
  · exact .failed _ _ _
  · exact .failed _ _ _
  · next tree htree =>
      split
      · exact .failed _ _ _
      · next hnone => exact .bound database session tree htree (by simpa using hnone)

omit [Uuid] [Sha256] [Prost] in
theorem ends_dropSocket (hlock : phase.holding = true) (error : DaemonError) :
    Ends contents phase contents.dropSocket (.failed error) := by
  refine ⟨rfl, rfl, id, ?_, fun hfree => ?_, .inl ⟨error, rfl⟩⟩
  · rw [Contents.dropSocket, Contents.mapTree, Option.map_map]
    rfl
  · rw [hlock] at hfree
    cases hfree

theorem answered_restrictSocket (database : ℕ) (session : Session.System.State)
    (failure : Option (IoError × Bool)) :
    Answered home index lockFree arguments contents (.restrictSocket database session)
      (restrictSocket home arguments contents database session failure) := by
  unfold restrictSocket
  split
  · next source removed =>
      cases removed with
      | false => exact .failed _ _ _
      | true => exact ends_dropSocket rfl _
  · exact .restricted database session

theorem answered_finishClose {control : Daemon} {database : ℕ} {session : Session.System.State}
    {closing : Closing} {outcome : Outcome} (hcloses : closes control.serve = true)
    (h : finishClose home contents control database session closing = some outcome) :
    Answered home index lockFree arguments contents (.serving control database session)
      outcome := by
  cases closing with
  | failed source =>
      obtain ⟨control', hcontrol, rfl⟩ := Option.map_eq_some_iff.mp h
      exact .closeFailed control control' database session source hcloses hcontrol
  | joined env clock =>
      obtain ⟨⟨contents', session', result⟩, hclosed, h⟩ := Option.bind_eq_some_iff.mp h
      obtain ⟨control', hcontrol, h⟩ := Option.bind_eq_some_iff.mp h
      cases h
      unfold closeSession at hclosed
      obtain ⟨called, hcall, hclosed⟩ := Option.bind_eq_some_iff.mp hclosed
      obtain ⟨closed, hclose, hclosed⟩ := Option.bind_eq_some_iff.mp hclosed
      split at hclosed
      · next result hphase =>
          cases hclosed
          exact .closed control control' database session called session' env clock result
            hcloses hcall hclose hphase hcontrol
      · cases hclosed

/-- What a step answers is a step of the list, or an end. -/
theorem answered_of_advance {event : Event} {outcome : Outcome}
    (h : advance home index lockFree arguments contents event phase = some outcome) :
    Answered home index lockFree arguments contents phase outcome := by
  unfold advance at h
  split at h
  · split at h
    · cases h
      exact .failed _ _ _
    · cases h
      exact .connected
  · cases h
    exact answered_validateMountpoint _
  · cases h
    exact answered_ensureWritableHome _
  · cases h
    exact answered_acquire _
  · cases h
    exact answered_truncateRecord _
  · cases h
    exact answered_writeRecord _
  · exact answered_removeEntry h
  · exact answered_removeIfPresent h
  · cases h
    exact answered_createDirIfAbsent _
  · cases h
    exact answered_createEmptyFile _
  · cases h
    exact answered_openCache _
  · cases h
    exact answered_openOverlay _
  · cases h
    exact answered_openDatabase _
  · cases h
    exact answered_createSchema _ _
  · cases h
    exact answered_recordVersion _ _
  · cases h
    exact answered_initializeDatabase _ _ _
  · cases h
    exact answered_initDaemon _ _ _
  · exact answered_inSession h
  · exact answered_rootLoaded h
  · cases h
    exact answered_mountFuse _ _ _
  · cases h
    exact answered_bindSocket _ _ _
  · cases h
    exact answered_restrictSocket _ _ _
  · next action control database session =>
      split at h
      · cases h
      · next hfinish =>
          obtain ⟨control', hcontrol, rfl⟩ := Option.map_eq_some_iff.mp h
          exact .controlled control control' action database session
            (.inl (by simpa using hfinish)) hcontrol
  · next joined control database session =>
      split at h
      · next hfinished =>
          obtain ⟨control', hcontrol, rfl⟩ := Option.map_eq_some_iff.mp h
          exact .controlled control control' _ database session
            (.inr ⟨joined, rfl, hfinished⟩) hcontrol
      · cases h
  · split at h
    · next hcloses => exact answered_finishClose hcloses h
    · cases h
  · next failure control database session =>
      have hcontents : (removeSocket contents failure).1 = contents ∨
          (removeSocket contents failure).1 = contents.dropSocket := by
        unfold removeSocket
        split
        · exact .inl rfl
        · exact .inl rfl
        · exact .inr rfl
      obtain ⟨control', hcontrol, rfl⟩ := Option.map_eq_some_iff.mp h
      exact .socketRemoved control control' database session _ _ hcontents hcontrol
  · next control database session =>
      obtain ⟨exit, hexit, rfl⟩ := Option.map_eq_some_iff.mp h
      exact ⟨rfl, rfl, id, rfl, fun _ => .inl rfl,
        .inr (.inr ⟨control, database, session, rfl, hexit⟩)⟩
  · cases h
    exact ⟨rfl, rfl, id, rfl, fun _ => .inl rfl, .inr (.inl rfl)⟩
  · cases h

end Inversion

/-! ### The session lock -/

omit [Uuid] [Sha256] [Prost] in
theorem handle_serve (control : Daemon) (request : Daemon.Request) :
    (control.handle request).2.serve = control.serve := by
  obtain hsame | ⟨r, -, -, hsent⟩ := control.handle_state request
  · rw [hsame]
  · rw [hsent]
    cases control.trySend r <;> rfl

omit [Uuid] [Sha256] [Prost] in
theorem keepsSession_of_step {control control' : Daemon} {action : Daemon.Action}
    (h : control.step action = some control') (hkeeps : keepsSession control'.serve = true) :
    keepsSession control.serve = true := by
  cases action with
  | request request =>
      cases h
      rwa [handle_serve] at hkeeps
  | signal kind =>
      cases h
      exact hkeeps
  | finishStep outcome =>
      simp only [Daemon.step] at h
      split at h
      · next step resources finishedServer hserve =>
          rw [hserve]
          split at h
          · next houtcome =>
              subst houtcome
              cases outcome with
              | unmount joined => rfl
              | close joined => rfl
              | removeSocket removed =>
                  cases h
                  unfold Daemon.afterRelease at hkeeps
                  split at hkeeps
                  · next hnext => cases hnext
                  · exact hkeeps
          · cases h
      · cases h
  | serverExits | cloneService | dropClone | selectResources | selectSignal | selectServer
  | detach | receive | stopServer =>
      simp only [Daemon.step, Daemon.detachStep, Daemon.receiveStep, Daemon.beginRelease] at h
      repeat' split at h
      all_goals cases h
      all_goals simp_all [keepsSession]

omit [Uuid] [Sha256] [Prost] in
theorem Phase.holding_of_accepts {phase : Phase} {move : Session.System.Move}
    (h : phase.accepts move = true) : phase.holding = true := by
  cases phase with
  | serving control database session =>
      rw [Phase.accepts, Bool.and_eq_true] at h
      have hmounted := h.2
      rw [Phase.holding]
      cases hserve : control.serve with
      | releasing step resources finishedServer =>
          rw [hserve] at hmounted
          cases step with
          | unmount => rfl
          | close => cases hmounted
          | removeSocket => cases hmounted
      | _ =>
          rw [hserve] at hmounted
          first | rfl | cases hmounted
  | _ => first | rfl | cases h

omit [Uuid] [Sha256] [Prost] in
theorem keepsSession_of_closes {serve : Daemon.Serve} (h : closes serve = true) :
    keepsSession serve = true := by
  cases serve with
  | releasing step resources finishedServer =>
      cases step with
      | close => rfl
      | _ => cases h
  | _ => cases h

section Lock

variable {home : PathBuf} {index : ℕ} {lockFree : Bool} {arguments : Arguments}
  {contents contents' : Contents} {phase phase' : Phase}
  (h : Proceeds home index lockFree arguments contents phase contents' phase')

include h

/-- A daemon that holds the lock after a step held it before, or it was free. -/
theorem Proceeds.takes (hholding : phase'.holding = true) :
    phase.holding = true ∨ lockFree = true := by
  cases h with
  | connected => cases hholding
  | validated => cases hholding
  | ensured => cases hholding
  | acquired hfree => exact .inr hfree
  | moved _ database session session' move hphase haccepts =>
      exact .inl (Phase.holding_of_accepts haccepts)
  | controlled control control' action database session haction hcontrol =>
      exact .inl (keepsSession_of_step hcontrol hholding)
  | closeFailed control control' database session source hcloses hcontrol =>
      exact .inl (keepsSession_of_step hcontrol hholding)
  | closed control control' database session called session' env clock result hcloses hcall
      hclose hphase hcontrol =>
      exact .inl (keepsSession_of_step hcontrol hholding)
  | socketRemoved control control' database session contents' removed hcontents hcontrol =>
      exact .inl (keepsSession_of_step hcontrol hholding)
  | _ => exact .inl rfl

/-- Without the lock a daemon changes nothing but the home and the socket. -/
theorem Proceeds.unlocked (hlock : phase.holding = false) :
    contents' = contents ∨ contents' = contents.withHome ∨ contents' = contents.dropSocket := by
  cases h with
  | connected => exact .inl rfl
  | validated => exact .inl rfl
  | ensured => exact .inr (.inl rfl)
  | acquired hfree => exact .inl rfl
  | moved _ database session session' move hphase haccepts =>
      rw [Phase.holding_of_accepts haccepts] at hlock
      cases hlock
  | controlled => exact .inl rfl
  | closeFailed => exact .inl rfl
  | closed control control' database session called session' env clock result hcloses =>
      rw [Phase.holding, keepsSession_of_closes hcloses] at hlock
      cases hlock
  | socketRemoved control control' database session contents' removed hcontents =>
      exact hcontents.imp_right .inr
  | _ => cases hlock

end Lock

/-! ### Steps of the home -/

/-- A daemon is started, goes on, or ends, or the home is created. -/
inductive Steps (home : PathBuf) (daemons : Daemons) : Daemons → Prop
  | started (arguments : Arguments) :
      Steps home daemons
        { daemons with threads := daemons.threads ++ [Process.start arguments] }
  | homed :
      Steps home daemons
        { daemons with
          shared := { daemons.shared with contents := daemons.shared.contents.withHome } }
  | proceeded (i : ℕ) (process : Process) (contents' : Contents) (phase' : Phase)
      (hi : daemons.threads[i]? = some process) (halive : process.exit = none)
      (h : Proceeds home i daemons.shared.lock.isNone process.arguments daemons.shared.contents
        process.phase contents' phase') :
      Steps home daemons
        { shared :=
            { contents := contents'
              lock := Lock.settle Process.holds i { process with phase := phase' }
                daemons.shared.lock }
          threads := daemons.threads.set i { process with phase := phase' } }
  | ended (i : ℕ) (process : Process) (contents' : Contents) (exit : Exit)
      (hi : daemons.threads[i]? = some process) (halive : process.exit = none)
      (h : Ends daemons.shared.contents process.phase contents' exit) :
      Steps home daemons
        { shared :=
            { contents := contents'
              lock := Lock.settle Process.holds i { process with exit := some exit }
                daemons.shared.lock }
          threads := daemons.threads.set i { process with exit := some exit } }

theorem steps_of_step {home : PathBuf} {daemons daemons' : Daemons} {move : Move}
    (h : step home daemons move = some daemons') : Steps home daemons daemons' := by
  cases move with
  | spawn arguments =>
      cases h
      exact .started arguments
  | createHome =>
      cases h
      exact .homed
  | act i event =>
      rw [step] at h
      obtain ⟨arguments, hmove, -⟩ |
        ⟨j, event', process, shared, process', hmove, hi, hact, rfl⟩ := Pool.step_cases h
      · cases hmove
      · cases hmove
        rw [act] at hact
        split at hact
        · cases hact
        · next halive =>
            obtain ⟨⟨contents', result⟩, hadvance, houtcome⟩ := Option.map_eq_some_iff.mp hact
            cases houtcome
            have halive : process.exit = none := by simpa using halive
            have hanswered := answered_of_advance hadvance
            cases result with
            | ok phase' => exact .proceeded i process contents' phase' hi halive hanswered
            | error exit => exact .ended i process contents' exit hi halive hanswered

/-- The session lock names the one daemon that holds it. -/
theorem Steps.held {home : PathBuf} {daemons daemons' : Daemons}
    (hsteps : Steps home daemons daemons')
    (h : Lock.Held Process.holds daemons.shared.lock daemons.threads) :
    Lock.Held Process.holds daemons'.shared.lock daemons'.threads := by
  cases hsteps with
  | started arguments => exact h.spawn rfl
  | homed => exact h
  | proceeded i process contents' phase' hi halive hproceeds =>
      refine h.settle hi fun hholds => ?_
      rw [Process.holds, Bool.and_eq_true] at hholds
      refine (hproceeds.takes hholds.2).imp (fun hholding => ?_) fun hfree => by simpa using hfree
      rw [Process.holds, halive, hholding]
      rfl
  | ended i process contents' exit hi halive hends =>
      have htaken : Process.holds { process with exit := some exit } = true →
          process.holds = true ∨ daemons.shared.lock = none := fun hholds => by cases hholds
      exact h.settle hi htaken

end Steps

end Home

end RemoteFs
