import RemoteFs.Fuse.Filesystem
import RemoteFs.Home.Contents
import RemoteFs.Library.Lock
import RemoteFs.Session.System

/-!
# A daemon process

A daemon opens the session of its home, constructs what it serves with, serves until its
resources are released, and exits. `Phase` is the next thing it does; `advance` has one case
for each thing it does between two points at which another process may run, with what the
file system, SQLite and the network answer as part of the event. A daemon can be killed at
every point.

The database and the cache are on disk. A step of the session reads them from there and
leaves its changes there, so what a daemon knows about them is what `attach` gives it.
-/

namespace RemoteFs

open Session (SessionError SessionStore Sqlite Surroundings internalError failedPrecondition
  fsError InodeId)
open Daemon (ControlError JoinError IoErrorKind)

namespace Home

/-! ### Failures -/

inductive LoggingError where
  | open (path : PathBuf) (source : IoError)
  | alreadyInitialized (source : String)
  deriving DecidableEq, Repr

inductive DaemonError where
  | text (message : String)
  | session (source : SessionError)
  | filesystem (source : FilesystemError)
  | logging (source : LoggingError)
  | io (source : IoError)
  | join (source : JoinError)
  | control (source : ControlError)
  | context (operation : String) (source : DaemonError)

instance : ResultContextError DaemonError where
  withContext source operation := .context operation source

inductive Exit where
  | failed (error : DaemonError)
  | closed
  | panicked
  | killed

inductive HomeFailure where
  | create (source : IoError)
  | secure (source : IoError)

inductive LockFailure where
  | open (source : IoError)
  | secure (source : IoError)
  | flock

inductive RecordFailure where
  | rewind (source : IoError)
  | encode (source : String)
  | write (source : IoError)

inductive Entry where
  | database
  | overlay
  | socket
  deriving DecidableEq

/-- The directories of an overlay, in the order they are created. -/
inductive OverlayDirectory where
  | root
  | data
  | tmp
  deriving DecidableEq

/-! ### Processes -/

/-- A path with at least one segment, none of which has a slash. -/
def Segmented (path : PathBuf) : Prop :=
  path ≠ [] ∧ ∀ text, OsStr.utf8 text ∈ path → '/' ∉ text.toList

/-- What a daemon is started with, and what the system and chance give it. -/
structure Arguments where
  rootDigest : Digest
  mountpoint : PathBuf
  pid : UInt32
  sessionId : String
  segmented : Segmented mountpoint
  pid_fits : pid.toNat < 2 ^ 31

def Arguments.record (arguments : Arguments) : LockRecord where
  recordVersion := lockRecordVersion
  sessionId := arguments.sessionId
  pid := arguments.pid

def Arguments.info (arguments : Arguments) (home : PathBuf) : Daemon.SessionInfo where
  rootDigest := arguments.rootDigest
  mountpoint := arguments.mountpoint
  daemonPid := arguments.pid
  controlEndpoint := (SessionLayout.new home).controlEndpoint
  closed := false

def Arguments.resources (arguments : Arguments) (home : PathBuf) : Daemon.DaemonResources where
  session := arguments.info home
  mount := arguments.mountpoint
  socket := (SessionLayout.new home).controlEndpoint

/-- What a daemon does next. From `createSchema` on it has a connection to a database file,
and from `initLogging` on an open session. -/
inductive Phase where
  | connectCas
  | validateMountpoint
  | ensureHome
  | acquireLock
  | truncateRecord
  | writeRecord
  | removeTree
  | createTree
  | createDatabase
  | openCache
  | openOverlay
  | openDatabase
  | createSchema (database : ℕ)
  | recordVersion (database : ℕ)
  | initializeDatabase (database : ℕ)
  | initLogging (database : ℕ) (session : Session.System.State)
  | loadRoot (database : ℕ) (session : Session.System.State)
  | mountFuse (database : ℕ) (session : Session.System.State)
  | bindSocket (database : ℕ) (session : Session.System.State)
  | restrictSocket (database : ℕ) (session : Session.System.State)
  | serving (control : Daemon) (database : ℕ) (session : Session.System.State)

/-- Whether `serve` has not yet dropped the session. -/
def keepsSession : Daemon.Serve → Bool
  | .selecting => true
  | .detaching _ => true
  | .receiving _ => true
  | .releasing .unmount _ _ => true
  | .releasing .close _ _ => true
  | _ => false

/-- Whether the mount is still there, so that the kernel sends requests. -/
def mounted : Daemon.Serve → Bool
  | .selecting => true
  | .detaching _ => true
  | .receiving _ => true
  | .releasing .unmount _ _ => true
  | _ => false

def Phase.holding : Phase → Bool
  | .connectCas => false
  | .validateMountpoint => false
  | .ensureHome => false
  | .acquireLock => false
  | .serving control _ _ => keepsSession control.serve
  | _ => true

/-- The session of a daemon and the file its connection names. -/
def Phase.session : Phase → Option (ℕ × Session.System.State)
  | .initLogging database session => some (database, session)
  | .loadRoot database session => some (database, session)
  | .mountFuse database session => some (database, session)
  | .bindSocket database session => some (database, session)
  | .restrictSocket database session => some (database, session)
  | .serving _ database session => some (database, session)
  | _ => none

def Phase.withSession (session : Session.System.State) : Phase → Phase
  | .initLogging database _ => .initLogging database session
  | .loadRoot database _ => .loadRoot database session
  | .mountFuse database _ => .mountFuse database session
  | .bindSocket database _ => .bindSocket database session
  | .restrictSocket database _ => .restrictSocket database session
  | .serving control database _ => .serving control database session
  | phase => phase

structure Process where
  arguments : Arguments
  phase : Phase
  exit : Option Exit

def Process.start (arguments : Arguments) : Process where
  arguments := arguments
  phase := .connectCas
  exit := none

def Process.holds (process : Process) : Bool :=
  process.exit.isNone && process.phase.holding

/-! ### Opening a session -/

/-- What a step makes of the disk and of the process. -/
abbrev Outcome := Contents × Except Exit Phase

def constructing (error : DaemonError) : Exit :=
  .failed (.context "construct daemon" error)

section Opening

variable (home : PathBuf) (arguments : Arguments) (contents : Contents)

def opening (operation : String) (error : SessionError) : Exit :=
  constructing (.context s!"create daemon session for {PathBuf.display arguments.mountpoint}"
    (.session (.context operation error)))

def validateMountpoint (metadata : Except IoError Bool) : Outcome :=
  let fail := fun reason => (contents, .error (opening arguments
    s!"validate session mountpoint {PathBuf.display arguments.mountpoint}"
    (internalError reason)))
  match metadata with
  | .error source =>
      fail s!"unable to inspect mountpoint {PathBuf.display arguments.mountpoint}: {source}"
  | .ok false => fail s!"mountpoint {PathBuf.display arguments.mountpoint} is not a valid directory"
  | .ok true => (contents, .ok .ensureHome)

def ensureWritableHome (failure : Option HomeFailure) : Outcome :=
  let fail := opening arguments "set up writable session home"
  if contents.created then (contents, .ok .acquireLock)
  else
    match failure with
    | some (.create source) => (contents, .error (fail (fsError "create state root" home source)))
    | some (.secure source) =>
        ({ contents with created := true },
          .error (fail (fsError "secure state root" home source)))
    | none => ({ contents with created := true }, .ok .acquireLock)

/-- Who owns a lock that is taken, as far as its record says. -/
def lockOwner (record : Option LockRecord) : String :=
  match record with
  | some record => s!"(pid {record.pid}, session {record.sessionId})"
  | none => "(owner diagnostics unavailable)"

def acquire (lockFree : Bool) (failure : Option LockFailure) : Outcome :=
  let path := (SessionLayout.new home).sessionLock
  let fail := opening arguments s!"acquire session lock {path.display}"
  match failure with
  | some (.open source) => (contents, .error (fail (fsError "open session lock" path source)))
  | some (.secure source) => (contents, .error (fail (fsError "secure session lock" path source)))
  | failure =>
      if lockFree ∧ failure.isNone then (contents, .ok .truncateRecord)
      else (contents, .error (fail (failedPrecondition
        (s!"acquire session lock {path.display}: another RemoteFS session owns it " ++
          lockOwner contents.record))))

def writingRecord (error : SessionError) : Exit :=
  opening arguments
    s!"write session lock record {PathBuf.display (SessionLayout.new home).sessionLock}" error

def truncateRecord (failure : Option IoError) : Outcome :=
  match failure with
  | some source => (contents, .error (writingRecord home arguments
      (fsError "truncate session lock" (SessionLayout.new home).sessionLock source)))
  | none => ({ contents with record := none }, .ok .writeRecord)

def writeRecord (failure : Option RecordFailure) : Outcome :=
  let path := (SessionLayout.new home).sessionLock
  match failure with
  | some (.rewind source) =>
      (contents, .error (writingRecord home arguments (fsError "rewind session lock" path source)))
  | some (.encode source) => (contents, .error (writingRecord home arguments
      (internalError s!"encode session lock record {path.display}: {source}")))
  | some (.write source) =>
      ({ contents with record := some arguments.record },
        .error (writingRecord home arguments (fsError "write session lock" path source)))
  | none => ({ contents with record := some arguments.record }, .ok .removeTree)

def Tree.has (tree : Tree) : Entry → Bool
  | .database => tree.database.isSome
  | .overlay => tree.overlay
  | .socket => tree.socket.isSome

def Tree.remove (tree : Tree) : Entry → Tree
  | .database => { tree with database := none }
  | .overlay => { tree with overlay := false }
  | .socket => { tree with socket := none }

def removeEntry (entry : Entry) : Option Outcome :=
  match contents.tree with
  | some tree =>
      if tree.has entry then
        some (contents.mapTree fun tree => tree.remove entry, .ok .removeTree)
      else none
  | none => none

/-- The rest of `remove_dir_all`: the empty directory goes, or something fails. -/
def removeIfPresent (failure : Option IoError) : Option Outcome :=
  let path := (SessionLayout.new home).session
  match failure with
  | some source => some (contents, .error (opening arguments
      s!"replace session directory {path.display}"
      (fsError "local state cleanup" path source)))
  | none =>
      if contents.tree = none ∨ contents.tree = some .empty then
        some ({ contents with tree := none }, .ok .createTree)
      else none

def createDirIfAbsent (failure : Option IoError) : Outcome :=
  let path := (SessionLayout.new home).session
  match contents.tree, failure with
  | some _, _ => (contents, .ok .createDatabase)
  | none, some source => (contents, .error (opening arguments
      s!"create session directory {path.display}" (fsError "create directory" path source)))
  | none, none => ({ contents with tree := some .empty }, .ok .createDatabase)

def createEmptyFile (index : ℕ) (failure : Option IoError) : Outcome :=
  let path := (SessionLayout.new home).databasePath
  let fail := fun source => (contents, .error (opening arguments
    s!"create session database {path.display}" (fsError "create file" path source)))
  match failure, contents.tree with
  | some source, _ => fail source
  | none, none => fail "No such file or directory"
  | none, some tree =>
      if tree.database.isSome then fail "File exists"
      else (contents.createDatabase (.daemon index), .ok .openCache)

def openCache (failure : Option IoError) : Outcome :=
  let path := (SessionLayout.new home).cache
  match failure with
  | some source => (contents, .error (opening arguments s!"open verified cache {path.display}"
      (.context s!"initialize verified blob cache at {path.display}"
        (fsError "create directory" path source))))
  | none => (contents, .ok .openOverlay)

def OverlayDirectory.path (directory : OverlayDirectory) : PathBuf :=
  let root := (SessionLayout.new home).overlayPath
  match directory with
  | .root => root
  | .data => root.join (.utf8 "data")
  | .tmp => root.join (.utf8 "tmp")

def openOverlay (failure : Option (OverlayDirectory × IoError)) : Outcome :=
  let made := contents.mapTree fun tree => { tree with overlay := true }
  match failure with
  | some (directory, source) =>
      (if directory = .root then contents else made, .error (opening arguments
        s!"open session overlay {PathBuf.display (SessionLayout.new home).overlayPath}"
        (fsError "create directory" (directory.path home) source)))
  | none => (made, .ok .openDatabase)

/-! ### The store of a session -/

def creatingStore (error : SessionError) : Exit :=
  opening arguments
    s!"create session store {PathBuf.display (SessionLayout.new home).databasePath}" error

/-- Open the database file the tree names, or a new one. -/
def openDatabase (index : ℕ) (sqlite : Sqlite) : Outcome :=
  let path := (SessionLayout.new home).databasePath
  match SessionStore.openDatabase sqlite path, contents.tree with
  | .error error, _ => (contents, .error (creatingStore home arguments error))
  | .ok (), none => (contents, .error (creatingStore home arguments
      (Session.databaseError "open connection" path "unable to open database file")))
  | .ok (), some tree =>
      match tree.database with
      | some database => (contents, .ok (.createSchema database))
      | none =>
          (contents.createDatabase (.daemon index),
            .ok (.createSchema contents.databases.length))

/-- The version a new connection finds, which must be none or the one of the program. -/
def checkVersion (sqlite : Sqlite) (version : ℤ) : Except SessionError Unit := do
  let path := (SessionLayout.new home).databasePath
  Session.execute sqlite path .readSchemaVersion "read schema version"
  if version ≠ 0 then validateSchemaVersion sqlite path version

def createSchema (database : ℕ) (sqlite : Sqlite) : Outcome :=
  let path := (SessionLayout.new home).databasePath
  let version := (contents.databases[database]?.map DatabaseFile.version).getD 0
  let result := do
    checkVersion home sqlite version
    Session.execute sqlite path .createSchema "create schema"
  match result with
  | .error error => (contents, .error (creatingStore home arguments error))
  | .ok () =>
      (contents.writeDatabase database fun file =>
        { file with tables := some (file.tables.getD .empty) },
        .ok (.recordVersion database))

/-- Give a database without a version the one of the program. -/
def recordVersion (database : ℕ) (sqlite : Sqlite) : Outcome :=
  let path := (SessionLayout.new home).databasePath
  let version := (contents.databases[database]?.map DatabaseFile.version).getD 0
  let result :=
    if version = 0 then
      Session.execute sqlite path .recordSchemaVersion "record schema version"
    else .ok ()
  match result with
  | .error error => (contents, .error (creatingStore home arguments error))
  | .ok () =>
      (contents.writeDatabase database fun file =>
        { file with version := if file.version = 0 then schemaVersion else file.version },
        .ok (.initializeDatabase database))

/-- Seed the tables in one transaction and open the session over them. -/
def initializeDatabase [Uuid] (database : ℕ) (sqlite : Sqlite) (clock : ℤ) : Outcome :=
  let path := (SessionLayout.new home).databasePath
  match contents.databases[database]?.bind DatabaseFile.tables with
  | none => (contents, .error (creatingStore home arguments (Session.databaseError
      "insert session metadata" path "no such table: session_metadata")))
  | some tables =>
      let store : SessionStore := { databasePath := path, database := tables }
      match store.initializeDatabase sqlite arguments.sessionId arguments.pid
          arguments.rootDigest arguments.mountpoint clock with
      | (.error error, _) => (contents, .error (creatingStore home arguments error))
      | (.ok (), store) =>
          (contents.writeDatabase database fun file =>
            { file with tables := some store.database },
            .ok (.initLogging database
              (Session.System.start arguments.rootDigest store contents.cacheFiles)))

end Opening

/-! ### The open session -/

def attach (contents : Contents) (database : ℕ) (session : Session.System.State) :
    Session.System.State :=
  { session with
    session :=
      { session.session with
        store :=
          { session.session.store with
            database := (contents.databases[database]?.bind DatabaseFile.tables).getD
              session.session.store.database } }
    cache :=
      { session.cache with
        shared := { session.cache.shared with files := contents.cacheFiles } } }

def deposit (contents : Contents) (database : ℕ) (session : Session.System.State) : Contents :=
  { contents.writeDatabase database fun file =>
      { file with tables := some session.session.store.database } with
    cacheFiles := session.cache.shared.files }

def isCall : Session.System.Move → Bool
  | .call _ => true
  | _ => false

def isClose : Session.System.Move → Bool
  | .call .close => true
  | _ => false

/-- The steps a session takes in a phase: those of the first load, and those of the requests
of the kernel once the daemon mounts. -/
def Phase.accepts (move : Session.System.Move) : Phase → Bool
  | .loadRoot _ _ => !isCall move
  | .mountFuse _ _ => !isClose move
  | .bindSocket _ _ => !isClose move
  | .restrictSocket _ _ => !isClose move
  | .serving control _ _ => !isClose move && mounted control.serve
  | _ => false

section Session

variable [Uuid] [Sha256] [Prost] (home : PathBuf) (contents : Contents) (database : ℕ)
  (session : Session.System.State)

def sessionStep (move : Session.System.Move) : Option (Contents × Session.System.State) :=
  (Session.System.step (SessionLayout.new home).cache (attach contents database session) move).map
    fun session => (deposit contents database session, session)

/-- The call that closes the session, from its beginning to its end, and its result. -/
def closeSession (env : Surroundings) (clock : ℤ) :
    Option (Contents × Session.System.State × Except SessionError Unit) := do
  let root := (SessionLayout.new home).cache
  let called ← Session.System.step root (attach contents database session) (.call .close)
  let closed ← Session.System.step root called (.proceed session.tasks.length env clock)
  match closed.tasks[session.tasks.length]?.map Session.System.Task.phase with
  | some (.returned result) =>
      some (deposit contents database closed, closed, result.map fun _ => ())
  | _ => none

end Session

/-! ### Construction -/

section Construction

variable (home : PathBuf) (arguments : Arguments) (contents : Contents) (database : ℕ)
  (session : Session.System.State)

/-- Truncate the trace log and install the subscriber; then the call that loads the root is
made. -/
def initDaemon (index : ℕ) (failure : Option LoggingError) : Outcome :=
  let fail := fun error => constructing
    (.context s!"initialize daemon logging under {home.display}" (.logging error))
  let truncated := { contents with traceLog := some (.daemon index) }
  match failure with
  | some (.open path source) => (contents, .error (fail (.open path source)))
  | some (.alreadyInitialized source) => (truncated, .error (fail (.alreadyInitialized source)))
  | none =>
      (truncated, .ok (.loadRoot database
        { session with
          tasks := session.tasks ++ [⟨.listDirectory InodeId.root, .called⟩] }))

/-- What the daemon makes of the result of the first load. -/
def rootLoaded : Option Outcome :=
  match session.tasks.head?.map Session.System.Task.phase with
  | some (.returned (.ok _)) => some (contents, .ok (.mountFuse database session))
  | some (.returned (.error error)) =>
      some (contents, .error (constructing
        (.context "validate root directory before FUSE mount"
          (.filesystem (.context "load mounted root directory"
            (.context s!"read directory inode {InodeId.root.display}"
              (.fromSession error)))))))
  | some .panicked =>
      some (contents, .error (constructing
        (.context "join root-directory validation task" (.join "task panicked"))))
  | _ => none

def mountFuse (failure : Option IoError) : Outcome :=
  match failure with
  | some source => (contents, .error (constructing
      (.context s!"mount FUSE filesystem at {PathBuf.display arguments.mountpoint}"
        (.io source))))
  | none => (contents, .ok (.bindSocket database session))

def settingUpSocket (operation : String) (source : IoError) : Exit :=
  constructing (.context "set up control socket" (.context
    s!"{operation} {PathBuf.display (SessionLayout.new home).controlEndpoint}" (.io source)))

def bindSocket (index : ℕ) (failure : Option IoError) : Outcome :=
  let fail := fun source => (contents, .error (settingUpSocket home "bind control socket" source))
  match failure, contents.tree with
  | some source, _ => fail source
  | none, none => fail "No such file or directory"
  | none, some tree =>
      if tree.socket.isSome then fail "Address already in use"
      else
        (contents.mapTree fun tree => { tree with socket := some (.daemon index) },
          .ok (.restrictSocket database session))

/-- A failure, and whether the socket could be removed after it. -/
def restrictSocket (failure : Option (IoError × Bool)) : Outcome :=
  match failure with
  | some (source, removed) =>
      (if removed then contents.dropSocket else contents,
        .error (settingUpSocket home "restrict control socket permissions" source))
  | none => (contents, .ok (.serving (.start (arguments.resources home)) database session))

def removeSocket (failure : Option (IoErrorKind × IoError)) :
    Contents × Except (IoErrorKind × IoError) Unit :=
  match failure, contents.tree.bind Tree.socket with
  | some source, _ => (contents, .error source)
  | none, none => (contents, .error (.notFound, "No such file or directory"))
  | none, some _ => (contents.dropSocket, .ok ())

end Construction

/-! ### Steps -/

inductive Closing where
  | joined (env : Surroundings) (clock : ℤ)
  | failed (source : JoinError)

inductive Event where
  | connectCas (failure : Option String)
  | validateMountpoint (metadata : Except IoError Bool)
  | ensureHome (failure : Option HomeFailure)
  | acquireLock (failure : Option LockFailure)
  | truncateRecord (failure : Option IoError)
  | writeRecord (failure : Option RecordFailure)
  | removeEntry (entry : Entry)
  | removeTree (failure : Option IoError)
  | createTree (failure : Option IoError)
  | createDatabase (failure : Option IoError)
  | openCache (failure : Option IoError)
  | openOverlay (failure : Option (OverlayDirectory × IoError))
  | openDatabase (sqlite : Sqlite)
  | createSchema (sqlite : Sqlite)
  | recordVersion (sqlite : Sqlite)
  | initializeDatabase (sqlite : Sqlite) (clock : ℤ)
  | initLogging (failure : Option LoggingError)
  | session (move : Session.System.Move)
  | rootLoaded
  | mountFuse (failure : Option IoError)
  | bindSocket (failure : Option IoError)
  | restrictSocket (failure : Option (IoError × Bool))
  | control (action : Daemon.Action)
  | unmount (joined : Except JoinError Unit)
  | close (closing : Closing)
  | removeSocket (failure : Option (IoErrorKind × IoError))
  | exit
  | kill

/-- The end of a release step is an event of its own. -/
def isFinishStep : Daemon.Action → Bool
  | .finishStep _ => true
  | _ => false

section Steps

variable [Uuid] [Sha256] [Prost] (home : PathBuf)

def inSession (contents : Contents) (move : Session.System.Move) (phase : Phase) :
    Option Outcome :=
  match phase.session with
  | none => none
  | some (database, session) =>
      if phase.accepts move then
        (sessionStep home contents database session move).map fun next =>
          (next.1, .ok (phase.withSession next.2))
      else none

/-- The end of `release`'s step that closes the session. -/
def finishClose (contents : Contents) (control : Daemon) (database : ℕ)
    (session : Session.System.State) : Closing → Option Outcome
  | .failed source =>
      (control.step (.finishStep (.close (.error source)))).map fun control =>
        (contents, .ok (.serving control database session))
  | .joined env clock => do
      let (contents, session, result) ← closeSession home contents database session env clock
      let control ← control.step (.finishStep (.close (.ok result)))
      some (contents, .ok (.serving control database session))

/-- Close needs the mount gone, and runs once `release` has come to it. -/
def closes : Daemon.Serve → Bool
  | .releasing .close _ _ => true
  | _ => false

/-- What the process makes of the result of `serve`. -/
def afterServe : Daemon.Serve → Option Exit
  | .returned (.ok ()) => some .closed
  | .returned (.error error) =>
      some (.failed (.context "serve and release daemon resources" (.control error)))
  | .panicked => some .panicked
  | _ => none

/-- One step of the process with an index; `lockFree` says that nobody holds the session
lock. -/
def advance (index : ℕ) (lockFree : Bool) (arguments : Arguments) (contents : Contents) :
    Event → Phase → Option Outcome
  | .connectCas failure, .connectCas =>
      match failure with
      | some source =>
          some (contents, .error
            (constructing (.context "set up daemon CAS client" (.text source))))
      | none => some (contents, .ok .validateMountpoint)
  | .validateMountpoint metadata, .validateMountpoint =>
      some (Home.validateMountpoint arguments contents metadata)
  | .ensureHome failure, .ensureHome => some (ensureWritableHome home arguments contents failure)
  | .acquireLock failure, .acquireLock =>
      some (acquire home arguments contents lockFree failure)
  | .truncateRecord failure, .truncateRecord =>
      some (Home.truncateRecord home arguments contents failure)
  | .writeRecord failure, .writeRecord =>
      some (Home.writeRecord home arguments contents failure)
  | .removeEntry entry, .removeTree => Home.removeEntry contents entry
  | .removeTree failure, .removeTree => removeIfPresent home arguments contents failure
  | .createTree failure, .createTree => some (createDirIfAbsent home arguments contents failure)
  | .createDatabase failure, .createDatabase =>
      some (createEmptyFile home arguments contents index failure)
  | .openCache failure, .openCache => some (Home.openCache home arguments contents failure)
  | .openOverlay failure, .openOverlay =>
      some (Home.openOverlay home arguments contents failure)
  | .openDatabase sqlite, .openDatabase =>
      some (Home.openDatabase home arguments contents index sqlite)
  | .createSchema sqlite, .createSchema database =>
      some (Home.createSchema home arguments contents database sqlite)
  | .recordVersion sqlite, .recordVersion database =>
      some (Home.recordVersion home arguments contents database sqlite)
  | .initializeDatabase sqlite clock, .initializeDatabase database =>
      some (Home.initializeDatabase home arguments contents database sqlite clock)
  | .initLogging failure, .initLogging database session =>
      some (initDaemon home contents database session index failure)
  | .session move, phase => inSession home contents move phase
  | .rootLoaded, .loadRoot database session => Home.rootLoaded contents database session
  | .mountFuse failure, .mountFuse database session =>
      some (Home.mountFuse arguments contents database session failure)
  | .bindSocket failure, .bindSocket database session =>
      some (Home.bindSocket home contents database session index failure)
  | .restrictSocket failure, .restrictSocket database session =>
      some (Home.restrictSocket home arguments contents database session failure)
  | .control action, .serving control database session =>
      if isFinishStep action then none
      else (control.step action).map fun control =>
        (contents, .ok (.serving control database session))
  | .unmount joined, .serving control database session =>
      if session.tasks.all (fun task => task.phase.finished) then
        (control.step (.finishStep (.unmount joined))).map fun control =>
          (contents, .ok (.serving control database session))
      else none
  | .close closing, .serving control database session =>
      if closes control.serve then finishClose home contents control database session closing
      else none
  | .removeSocket failure, .serving control database session =>
      match Home.removeSocket contents failure with
      | (contents, removed) =>
          (control.step (.finishStep (.removeSocket removed))).map fun control =>
            (contents, .ok (.serving control database session))
  | .exit, .serving control _ _ =>
      (afterServe control.serve).map fun exit => (contents, .error exit)
  | .kill, _ => some (contents, .error .killed)
  | _, _ => none

/-- The process after a step: it goes on in another phase or ends. -/
def Process.after (process : Process) : Except Exit Phase → Process
  | .ok phase => { process with phase := phase }
  | .error exit => { process with exit := some exit }

/-- What all processes share: the disk, and the process that holds the session lock. -/
structure Shared where
  contents : Contents
  lock : Option ℕ

def act (index : ℕ) (event : Event) (shared : Shared) (process : Process) :
    Option (Shared × Process) :=
  if process.exit.isSome then none
  else
    (advance home index shared.lock.isNone process.arguments shared.contents event
      process.phase).map fun outcome =>
        ({ contents := outcome.1
           lock := Lock.settle Process.holds index (process.after outcome.2) shared.lock },
          process.after outcome.2)

abbrev Daemons := Pool Shared Process

/-- A daemon is started, one takes a step, or a command creates the home. -/
inductive Move where
  | spawn (arguments : Arguments)
  | act (i : ℕ) (event : Event)
  | createHome

def step (daemons : Daemons) : Move → Option Daemons
  | .spawn arguments => daemons.step Process.start (act home) (.spawn arguments)
  | .act i event => daemons.step Process.start (act home) (.act i event)
  | .createHome => some
      { daemons with
        shared :=
          { daemons.shared with
            contents := { daemons.shared.contents with created := true } } }

end Steps

def start (contents : Contents) : Daemons where
  shared := { contents := contents, lock := none }
  threads := []

/-- A state that any interleaving of daemons, failures and kills leads to. -/
def Reached [Uuid] [Sha256] [Prost] (home : PathBuf) (daemons : Daemons) : Prop :=
  ∃ contents moves, contents.Found ∧
    Transition.run (step home) (start contents) moves = some daemons

end Home

end RemoteFs
