import RemoteFs.Home.Exclusive

/-!
# What a home retains

The session of every daemon, also of one that ended, is one that `Session.System` can reach
without the other daemons, and its database stays as the daemon left it. So `inspect` answers
with what the daemon was started with, and with `closed` exactly when the daemon closed the
session. A daemon that exits with success has closed it.
-/

namespace RemoteFs

open Session (SessionError SessionMetadata Sqlite failedPrecondition)

/-! ### Paths in the database -/

namespace PathBuf

theorem eq_map_of_mapM {path : PathBuf} {texts : List String}
    (h : path.mapM OsStr.toStr = some texts) : path = texts.map OsStr.utf8 := by
  induction path generalizing texts with
  | nil =>
      cases h
      rfl
  | cons segment rest ih =>
      rw [List.mapM_cons] at h
      obtain ⟨text, htext, h⟩ := Option.bind_eq_some_iff.mp h
      obtain ⟨others, hothers, h⟩ := Option.bind_eq_some_iff.mp h
      cases h
      cases segment with
      | utf8 segment =>
          cases htext
          rw [ih hothers, List.map_cons]
      | invalid bytes lossy => cases htext

/-- The text of a path is read back as the path. -/
theorem ofText_of_toStr {path : PathBuf} {text : String} (h : path.toStr = some text)
    (hsegmented : Home.Segmented path) : ofText text = path := by
  obtain ⟨texts, htexts, rfl⟩ := Option.map_eq_some_iff.mp h
  have hpath := eq_map_of_mapM htexts
  subst hpath
  have hne : texts.map String.toList ≠ [] := by
    rw [ne_eq, List.map_eq_nil_iff]
    rintro rfl
    exact hsegmented.1 rfl
  have hslash : ∀ segment ∈ texts.map String.toList, '/' ∉ segment := by
    intro segment hsegment
    obtain ⟨text, htext, rfl⟩ := List.mem_map.mp hsegment
    exact hsegmented.2 text (List.mem_map_of_mem htext)
  have hsplit : (String.intercalate "/" texts).toList.splitOn '/' = texts.map String.toList := by
    rw [String.toList_intercalate]
    exact List.splitOn_intercalate '/' hslash hne
  rw [ofText, hsplit, List.map_map]
  refine List.map_congr_left fun text _ => ?_
  rw [Function.comp_apply, String.ofList_toList]

end PathBuf

namespace Home

/-! ### How daemons end -/

/-- A daemon that was not killed and reported no failure has served. -/
def Exited (process : Process) : Prop :=
  ∀ exit, process.exit = some exit → (∃ error, exit = .failed error) ∨ exit = .killed ∨
    ∃ control database session, process.phase = .serving control database session ∧
      afterServe control.serve = some exit

section Running

variable [Uuid] [Sha256] [Prost] {home : PathBuf} {daemons daemons' : Daemons}

theorem Steps.exited (hsteps : Steps home daemons daemons')
    (h : ∀ process ∈ daemons.threads, Exited process) :
    ∀ process ∈ daemons'.threads, Exited process := by
  cases hsteps with
  | started arguments =>
      intro process hprocess
      obtain hold | hnew := List.mem_append.mp hprocess
      · exact h process hold
      · rw [List.mem_singleton.mp hnew]
        intro exit hexit
        cases hexit
  | homed => exact h
  | proceeded i process contents' phase' hi halive hproceeds =>
      intro other hother
      obtain hold | rfl := List.mem_or_eq_of_mem_set hother
      · exact h other hold
      · intro exit hexit
        rw [halive] at hexit
        cases hexit
  | ended i process contents' exit hi halive hends =>
      intro other hother
      obtain hold | rfl := List.mem_or_eq_of_mem_set hother
      · exact h other hold
      · intro exit' hexit
        cases hexit
        exact hends.exited

theorem exited_of_reached (h : Reached home daemons) :
    ∀ process ∈ daemons.threads, Exited process := by
  obtain ⟨contents, moves, -, hrun⟩ := h
  exact Transition.run_invariant (I := fun daemons => ∀ process ∈ daemons.threads,
    Exited process) (fun _ _ _ hinv hstep => (steps_of_step hstep).exited hinv) moves
    (start contents) daemons (fun process hprocess => by cases hprocess) hrun

/-- A daemon does not panic, and one that exits with success has closed its session. -/
theorem Running.of_afterServe {arguments : Arguments} {control : Daemon} {database : ℕ}
    {session : Session.System.State} {exit : Exit}
    (h : Running home arguments (.serving control database session))
    (hexit : afterServe control.serve = some exit) :
    exit ≠ .panicked ∧
      (exit = .closed → (Phase.serving control database session).recordsClose = true) := by
  have howned := h.owned control database session rfl
  have hpanicked := howned.ne_panicked
  unfold afterServe at hexit
  split at hexit
  · next hserve =>
      cases hexit
      refine ⟨(fun heq => by cases heq), fun _ => ?_⟩
      obtain ⟨removed, hlog⟩ := howned.log_of_returned_ok hserve
      rw [Phase.recordsClose, hlog]
      rfl
  · cases hexit
    exact ⟨(fun heq => by cases heq), fun heq => by cases heq⟩
  · next hserve => exact absurd hserve hpanicked
  · cases hexit

/-! ### The file of a session -/

omit [Uuid] [Sha256] [Prost] in
theorem Files.origin {index : ℕ} {phase phase' : Phase}
    {databases databases' : List DatabaseFile} (h : Files index phase phase' databases databases')
    {database : ℕ} {file : DatabaseFile} (hfile : databases[database]? = some file) :
    ∃ file', databases'[database]? = some file' ∧ file'.origin = file.origin := by
  cases h with
  | kept hwrote => exact ⟨file, hfile, rfl⟩
  | made hnone hwrote =>
      refine ⟨file, ?_, rfl⟩
      rw [List.getElem?_append_left (List.getElem?_eq_some_iff.mp hfile).1, hfile]
  | written made f hf hmade hwrote =>
      rw [List.getElem?_modify, hfile]
      refine ⟨if made = database then f file else file, rfl, ?_⟩
      split
      · exact hf file
      · rfl

/-- A session is the one of before, or its database has just been seeded. -/
theorem Proceeds.session_cases {index : ℕ} {lockFree : Bool} {arguments : Arguments}
    {contents contents' : Contents} {phase phase' : Phase}
    (h : Proceeds home index lockFree arguments contents phase contents' phase') {database : ℕ}
    {session' : Session.System.State} (hphase' : phase'.session = some (database, session')) :
    (∃ session, phase.session = some (database, session)) ∨
      phase = .initializeDatabase database := by
  cases h with
  | initialized made sqlite clock tables store htables hstore =>
      cases hphase'
      exact .inr rfl
  | moved _ made session session'' move hphase =>
      rw [Phase.session_withSession hphase] at hphase'
      cases hphase'
      exact .inl ⟨session, hphase⟩
  | logged | loaded | mounted | bound | restricted | controlled | closeFailed | closed
  | socketRemoved =>
      cases hphase'
      exact .inl ⟨_, rfl⟩
  | _ => cases hphase'

/-- The file of the session of every daemon is one the daemon made. -/
def AllPlaced (daemons : Daemons) : Prop :=
  ∀ (i : ℕ) process, daemons.threads[i]? = some process → ∀ database session,
    process.phase.session = some (database, session) →
      ∃ file, daemons.shared.contents.databases[database]? = some file ∧ file.origin = .daemon i

theorem AllPlaced.steps (h : AllPlaced daemons) (hsound : Sound daemons)
    (hsteps : Steps home daemons daemons') : AllPlaced daemons' := by
  cases hsteps with
  | started arguments =>
      intro i process hi database session hphase
      obtain hold | rfl := Pool.getElem?_append_cases hi
      · exact h i process hold database session hphase
      · cases hphase
  | homed => exact h
  | proceeded i process contents' phase' hi halive hproceeds =>
      have hholds := Process.holds_of_alive halive
      have hfits : process.phase.holding = true →
          Fits i process.arguments daemons.shared.contents process.phase :=
        fun hholding => hsound.fits i process hi (hholds.trans hholding)
      have hfiles := hproceeds.files hfits hsound.single
      intro j other hj database session hphase
      have hbefore : ∃ file, daemons.shared.contents.databases[database]? = some file ∧
          file.origin = .daemon j := by
        obtain ⟨rfl, rfl⟩ | ⟨-, hold⟩ := Pool.getElem?_set_cases hj
        · obtain ⟨session', hsession⟩ | hseeding := hproceeds.session_cases hphase
          · exact h j process hi database session' hsession
          · rw [hseeding] at hfits
            exact (hfits rfl).2.file
        · exact h j other hold database session hphase
      obtain ⟨file, hfile, horigin⟩ := hbefore
      obtain ⟨file', hfile', horigin'⟩ := hfiles.origin hfile
      exact ⟨file', hfile', horigin'.trans horigin⟩
  | ended i process contents' exit hi halive hends =>
      intro j other hj database session hphase
      dsimp only
      rw [hends.databases]
      obtain ⟨rfl, rfl⟩ | ⟨-, hold⟩ := Pool.getElem?_set_cases hj
      · exact h j process hi database session hphase
      · exact h j other hold database session hphase

theorem placed_of_reached (h : Reached home daemons) : AllPlaced daemons := by
  obtain ⟨contents, moves, hfound, hrun⟩ := h
  refine (Transition.run_invariant (I := fun daemons => Sound daemons ∧ AllPlaced daemons)
    (fun s move s' hinv hstep => ?_) moves (start contents) daemons
    ⟨sound_start hfound, fun i process hi => by cases hi⟩ hrun).2
  have hsteps := steps_of_step hstep
  exact ⟨hinv.1.steps hsteps, hinv.2.steps hinv.1 hsteps⟩

structure Retained (home : PathBuf) (contents : Contents) (index : ℕ) (process : Process)
    (database : ℕ) (session : Session.System.State) : Prop where
  reached : Session.System.Reached process.arguments.rootDigest (SessionLayout.new home).cache
    session
  file : ∃ file, contents.databases[database]? = some file ∧ file.origin = .daemon index ∧
    file.version = schemaVersion ∧ file.tables = some session.session.store.database
  closed : process.phase.recordsClose = true ↔
    session.tasks.countP Session.System.Task.closed = 1
  ended : process.exit ≠ some .panicked ∧
    (process.exit = some .closed → process.phase.recordsClose = true)

/-- The session of every daemon, alive or not, is one that can be reached without the others.
Nobody else has changed its database, and a daemon that exits with success has closed it. -/
theorem home_sessions (home : PathBuf) (daemons : Daemons) (hreached : Reached home daemons)
    (i : ℕ) (process : Process) (hi : daemons.threads[i]? = some process) (database : ℕ)
    (session : Session.System.State)
    (hphase : process.phase.session = some (database, session)) :
    Retained home daemons.shared.contents i process database session := by
  obtain ⟨hsound, hrunning⟩ := running_of_reached hreached
  have hrun := hrunning i process hi
  obtain ⟨hopened, hclosed⟩ := hrun.opened database session hphase
  obtain ⟨file, hfile, horigin, hwrote⟩ :=
    hsound.file hi (placed_of_reached hreached i process hi database session hphase)
  obtain ⟨-, hversion, htables⟩ := (wrote_of_session hphase).mp hwrote
  refine ⟨hopened.reached, ⟨file, hfile, horigin, hversion, htables⟩, hclosed, ?_⟩
  have hexited := exited_of_reached hreached process (List.mem_of_getElem? hi)
  constructor
  · intro hpanicked
    obtain ⟨error, heq⟩ | heq | ⟨control, made, served, hserving, hexit⟩ :=
      hexited .panicked hpanicked
    · cases heq
    · cases heq
    · rw [hserving] at hrun
      exact (hrun.of_afterServe hexit).1 rfl
  · intro hsuccess
    obtain ⟨error, heq⟩ | heq | ⟨control, made, served, hserving, hexit⟩ :=
      hexited .closed hsuccess
    · cases heq
    · cases heq
    · rw [hserving] at hrun ⊢
      exact (hrun.of_afterServe hexit).2 rfl

/-! ### Inspection -/

def Process.retained (home : PathBuf) (process : Process) : Daemon.SessionInfo :=
  { process.arguments.info home with closed := process.phase.recordsClose }

/-- The row of a session says what the daemon was started with and whether it was closed. -/
theorem Opened.readStoredSession {arguments : Arguments} {session : Session.System.State}
    (h : Opened home arguments session) :
    ∃ metadata : SessionMetadata, metadata.daemonPid = arguments.pid ∧
      metadata.rootDigest = arguments.rootDigest ∧ metadata.mountpoint = arguments.mountpoint ∧
      (metadata.state = .closed ↔ session.tasks.countP Session.System.Task.closed = 1) ∧
      ∀ (sqlite : Sqlite) path,
        Session.readStoredSession sqlite path session.session.store.database =
          Session.execute sqlite path .readSessionMetadata "read session metadata" >>=
            fun _ => .ok metadata := by
  obtain ⟨text, htext, hstored⟩ := h.stored
  have hpath := PathBuf.ofText_of_toStr htext arguments.segmented
  cases hstored with
  | active row hrow hvalid hnone =>
      have hactive : (facts arguments text).state ≠ .closed := fun heq => by cases heq
      refine ⟨facts arguments text, rfl, rfl, hpath, iff_of_false hactive (by omega), ?_⟩
      intro sqlite path
      rw [Session.readStoredSession, hrow]
      dsimp only
      rw [hvalid]
  | closed row hrow hvalid hone =>
      refine ⟨{ facts arguments text with state := .closed }, rfl, rfl, hpath,
        iff_of_true rfl hone, ?_⟩
      intro sqlite path
      rw [Session.readStoredSession, hrow]
      dsimp only
      rw [hvalid]

omit [Uuid] [Sha256] [Prost] in
/-- What a daemon that opened no session has put into its file cannot be read as one. -/
theorem Wrote.unfinished {database : ℕ} {file : DatabaseFile} {phase : Phase}
    (h : Wrote database file phase) (hphase : phase.session = none) :
    file.version = 0 ∨ file.tables = some .empty := by
  cases phase with
  | openCache | openOverlay | openDatabase => exact .inl h.1
  | createSchema made => exact .inl h.2.1
  | recordVersion made => exact .inl h.2.1
  | initializeDatabase made => exact .inr h.2.2
  | initLogging | loadRoot | mountFuse | bindSocket | restrictSocket | serving => cases hphase
  | _ =>
      obtain ⟨session, hsession, -⟩ := h
      cases hsession

omit [Sha256] [Prost] in
theorem inspectStore_unfinished {sqlite : Sqlite} {path : PathBuf} {file : DatabaseFile}
    (h : file.version = 0 ∨ file.tables = some .empty) {metadata : SessionMetadata} :
    inspectStore sqlite path (some file) ≠ .ok metadata := by
  intro hok
  obtain ⟨-, hok⟩ := (Result.check_bind_eq_ok_iff _ _ _).mp hok
  obtain ⟨-, hok⟩ := (Result.check_bind_eq_ok_iff _ _ _).mp hok
  obtain ⟨hvalid, hread⟩ := (Result.check_bind_eq_ok_iff _ _ _).mp hok
  obtain hversion | htables := h
  · obtain ⟨-, hvalid⟩ := (Result.check_bind_eq_ok_iff _ _ _).mp hvalid
    rw [hversion] at hvalid
    cases hvalid
  · rw [DatabaseFile.readStoredSession, htables] at hread
    obtain ⟨-, hread⟩ := (Result.check_bind_eq_ok_iff _ _ _).mp hread
    cases hread

omit [Sha256] [Prost] in
/-- What `inspect` makes of a session tree. -/
theorem inspect_eq {contents : Contents} (hcreated : contents.created = true)
    (htree : contents.tree.isSome = true) (sqlite : Sqlite) :
    contents.inspect home sqlite =
      (inspectStore sqlite (SessionLayout.new home).databasePath contents.sessionDatabase).map
        fun stored => some
          { rootDigest := stored.rootDigest
            mountpoint := stored.mountpoint
            daemonPid := stored.daemonPid
            controlEndpoint := (SessionLayout.new home).controlEndpoint
            closed := stored.state = .closed } := by
  have hnone : contents.tree.isNone = false := by
    rw [← Bool.not_eq_true, Option.isNone_iff_eq_none, ← ne_eq, ← Option.isSome_iff_ne_none]
    exact htree
  rw [Contents.inspect, Contents.ensureReaderHome, if_pos hcreated, Result.ok_bind, hnone,
    if_neg Bool.false_ne_true]
  cases inspectStore sqlite (SessionLayout.new home).databasePath contents.sessionDatabase <;> rfl

theorem inspectStore_session {process : Process}
    {session : Session.System.State} {file : DatabaseFile}
    (hopened : Opened home process.arguments session)
    (hclosed : process.phase.recordsClose = true ↔
      session.tasks.countP Session.System.Task.closed = 1)
    (hversion : file.version = schemaVersion)
    (htables : file.tables = some session.session.store.database) :
    ∃ metadata : SessionMetadata,
      process.retained home =
        { rootDigest := metadata.rootDigest
          mountpoint := metadata.mountpoint
          daemonPid := metadata.daemonPid
          controlEndpoint := (SessionLayout.new home).controlEndpoint
          closed := metadata.state = .closed } ∧
      (∀ sqlite path stored, inspectStore sqlite path (some file) = .ok stored →
        stored = metadata) ∧
      ∀ sqlite path, (∀ statement, sqlite statement = none) →
        inspectStore sqlite path (some file) = .ok metadata := by
  obtain ⟨metadata, hpid, hdigest, hmountpoint, hstate, hread⟩ := hopened.readStoredSession
  have hread : ∀ (sqlite : Sqlite) path, file.readStoredSession sqlite path =
      Session.execute sqlite path .readSessionMetadata "read session metadata" >>=
        fun _ => .ok metadata := by
    intro sqlite path
    rw [DatabaseFile.readStoredSession, htables]
    exact hread sqlite path
  refine ⟨metadata, ?_, fun sqlite path stored hok => ?_, fun sqlite path hquiet => ?_⟩
  · have hrecords : process.phase.recordsClose = decide (metadata.state = .closed) := by
      rw [Bool.eq_iff_iff, decide_eq_true_iff, hclosed, hstate]
    rw [Process.retained, Arguments.info, hrecords, hpid, hdigest, hmountpoint]
  · obtain ⟨-, hok⟩ := (Result.check_bind_eq_ok_iff _ _ _).mp hok
    obtain ⟨-, hok⟩ := (Result.check_bind_eq_ok_iff _ _ _).mp hok
    obtain ⟨-, hok⟩ := (Result.check_bind_eq_ok_iff _ _ _).mp hok
    rw [hread] at hok
    obtain ⟨-, hok⟩ := (Result.check_bind_eq_ok_iff _ _ _).mp hok
    cases hok
    rfl
  · have hexecute : ∀ statement operation,
        Session.execute sqlite path statement operation = .ok () := by
      intro statement operation
      rw [Session.execute, hquiet statement]
    have hvalid : validateSchemaVersion sqlite path file.version = .ok () := by
      rw [validateSchemaVersion, hexecute, Result.ok_bind, if_pos hversion]
    rw [inspectStore, hexecute, Result.ok_bind, hexecute, Result.ok_bind, hvalid,
      Result.ok_bind, hread, hexecute, Result.ok_bind]

/-- The daemon that made the database of the session tree, and what `inspect` makes of it. -/
theorem inspect_of_origin (hreached : Reached home daemons) {i : ℕ} {file : DatabaseFile}
    (hfile : daemons.shared.contents.sessionDatabase = some file)
    (horigin : file.origin = .daemon i) :
    ∃ process database, daemons.threads[i]? = some process ∧
      Wrote database file process.phase ∧
      ∀ sqlite : Sqlite, daemons.shared.contents.inspect home sqlite =
        (inspectStore sqlite (SessionLayout.new home).databasePath (some file)).map
          fun stored => some
            { rootDigest := stored.rootDigest
              mountpoint := stored.mountpoint
              daemonPid := stored.daemonPid
              controlEndpoint := (SessionLayout.new home).controlEndpoint
              closed := stored.state = .closed } := by
  have hsound := sound_of_reached hreached
  obtain ⟨database, htree, hnamed⟩ := Option.bind_eq_some_iff.mp hfile
  obtain ⟨process, hi, hwrote⟩ := hsound.filed database file i hnamed horigin
  have hsome : daemons.shared.contents.tree.isSome = true := by
    obtain ⟨tree, htree, -⟩ := Option.bind_eq_some_iff.mp htree
    rw [htree, Option.isSome_some]
  refine ⟨process, database, hi, hwrote, fun sqlite => ?_⟩
  rw [inspect_eq (hsound.sane.created hsome) hsome, hfile]

theorem retained_of_inspect (hreached : Reached home daemons) {i : ℕ} {file : DatabaseFile}
    (hfile : daemons.shared.contents.sessionDatabase = some file)
    (horigin : file.origin = .daemon i) {process : Process}
    (hi : daemons.threads[i]? = some process) {sqlite : Sqlite}
    {info : Option Daemon.SessionInfo}
    (hok : daemons.shared.contents.inspect home sqlite = .ok info) :
    process.phase.session.isSome = true ∧ info = some (process.retained home) := by
  obtain ⟨maker, database, hmaker, hwrote, hinspect⟩ :=
    inspect_of_origin hreached hfile horigin
  rw [hi, Option.some.injEq] at hmaker
  subst hmaker
  rw [hinspect] at hok
  obtain ⟨stored, hstored, rfl⟩ := (Result.map_eq_ok_iff _ _ _).mp hok
  cases hphase : process.phase.session with
  | none => exact absurd hstored (inspectStore_unfinished (hwrote.unfinished hphase))
  | some opened =>
      obtain ⟨made, session⟩ := opened
      obtain ⟨-, hversion, htables⟩ := (wrote_of_session hphase).mp hwrote
      obtain ⟨hopened, hclosed⟩ :=
        ((running_of_reached hreached).2 i process hi).opened made session hphase
      obtain ⟨metadata, hretained, honly, -⟩ :=
        inspectStore_session hopened hclosed hversion htables
      exact ⟨rfl, by rw [honly sqlite _ stored hstored, hretained]⟩

end Running

namespace Sample

/-- A shutdown request, the release of the resources, and the exit. -/
def unmounting : List Event :=
  [.control (.request (.shutdown 1)), .control .selectResources, .unmount (.ok ()),
    .close (.joined Session.calm 5), .removeSocket none,
    .control (.serverExits (.ok ())), .control .stopServer, .exit]

def unmounted : List Move :=
  [.spawn arguments] ++ (opening ++ constructing ++ unmounting).map (.act 0)

/-- Whether a process has ended well and has closed its session, and the file of the session. -/
def ending (process : Process) : Bool × Bool × Option ℕ :=
  (process.exit matches some .closed, process.phase.recordsClose,
    process.phase.session.map Prod.fst)

theorem unmounted_ending :
    letI : Uuid := Session.Sample.uuid
    letI : Sha256 := Session.Cache.Sample.sha256
    letI : Prost := Session.System.Sample.prost
    (Transition.run (step home) (start Contents.absent) unmounted).map (fun daemons =>
        (daemons.threads.map ending,
          daemons.shared.contents.sessionDatabase.map DatabaseFile.origin)) =
      some ([(true, true, some 0)], some (.daemon 0)) := by
  decide +kernel

theorem unmounted_exited :
    letI : Uuid := Session.Sample.uuid
    letI : Sha256 := Session.Cache.Sample.sha256
    letI : Prost := Session.System.Sample.prost
    ∃ daemons p session file, Transition.run (step home) (start Contents.absent) unmounted =
        some daemons ∧ daemons.threads = [p] ∧ p.phase.session = some (0, session) ∧
      daemons.shared.contents.sessionDatabase = some file ∧ file.origin = .daemon 0 ∧
      p.exit = some .closed ∧ p.phase.recordsClose = true := by
  obtain ⟨daemons, hrun, hending⟩ := Option.map_eq_some_iff.mp unmounted_ending
  obtain ⟨hthreads, horigin⟩ := Prod.mk.inj hending
  obtain ⟨p, rest, hthreads, hp, hnil⟩ := List.map_eq_cons_iff.mp hthreads
  obtain rfl := List.map_eq_nil_iff.mp hnil
  obtain ⟨file, hfile, horigin⟩ := Option.map_eq_some_iff.mp horigin
  simp only [ending, Prod.mk.injEq] at hp
  obtain ⟨hexit, hclosed, hsession⟩ := hp
  obtain ⟨⟨_, session⟩, hphase, rfl⟩ := Option.map_eq_some_iff.mp hsession
  refine ⟨daemons, p, session, file, hrun, hthreads, hphase, hfile, horigin, ?_, hclosed⟩
  split at hexit
  · assumption
  · cases hexit

end Sample

/-- The session of a daemon that has exited. -/
theorem home_sessions_sample :
    letI : Uuid := Session.Sample.uuid
    letI : Sha256 := Session.Cache.Sample.sha256
    letI : Prost := Session.System.Sample.prost
    ∃ daemons p session, Reached Sample.home daemons ∧ daemons.threads = [p] ∧
      p.exit = some .closed ∧ Retained Sample.home daemons.shared.contents 0 p 0 session := by
  let _ : Uuid := Session.Sample.uuid
  let _ : Sha256 := Session.Cache.Sample.sha256
  let _ : Prost := Session.System.Sample.prost
  obtain ⟨daemons, p, session, file, hrun, hthreads, hphase, -, -, hexit, -⟩ :=
    Sample.unmounted_exited
  have hreached : Reached Sample.home daemons :=
    ⟨Contents.absent, Sample.unmounted, Sample.found_absent, hrun⟩
  have hfirst : daemons.threads[0]? = some p := by rw [hthreads]; rfl
  exact ⟨daemons, p, session, hreached, hthreads, hexit,
    home_sessions Sample.home daemons hreached 0 p hfirst 0 session hphase⟩

end Home

end RemoteFs
