import RemoteFs.Daemon.Control
import RemoteFs.Session.Store

/-!
# What a home holds

A home is the directory `RFS_HOME`: the lock file, the session tree with its database, its
overlay and the control socket, the verified cache beside it, and the trace log. `Contents`
is what is on disk there. A database file is named by its place in the list of all database
files ever created, as an open connection goes on to name a file whose name was removed, and
a file keeps who made it.

`inspect` reads the retained session without locking anything.
-/

namespace RemoteFs

open Session (SessionError SessionMetadata Database Sqlite failedPrecondition execute
  databaseError)

structure SessionLayout where
  cache : PathBuf
  session : PathBuf
  sessionLock : PathBuf
  controlEndpoint : PathBuf

namespace SessionLayout

def new (home : PathBuf) : SessionLayout where
  cache := home.join (.utf8 "cache")
  session := home.join (.utf8 "session")
  sessionLock := home.join (.utf8 "session.lock")
  controlEndpoint := (home.join (.utf8 "session")).join (.utf8 "control.sock")

def databasePath (layout : SessionLayout) : PathBuf :=
  layout.session.join (.utf8 "session.db")

def overlayPath (layout : SessionLayout) : PathBuf :=
  layout.session.join (.utf8 "overlay")

end SessionLayout

namespace Home

structure LockRecord where
  recordVersion : UInt32
  sessionId : String
  pid : UInt32
  deriving DecidableEq, Repr

def lockRecordVersion : UInt32 := 1

/-- Who made a file: it was there before, or one of the daemons did. -/
inductive Origin where
  | found
  | daemon (index : ℕ)
  deriving DecidableEq, Repr

/-- A database file: its `user_version`, and its tables once the schema is created. -/
structure DatabaseFile where
  origin : Origin
  version : ℤ
  tables : Option Database

/-- The session tree. Its database names a file, its socket the process that bound it. -/
structure Tree where
  database : Option ℕ
  overlay : Bool
  socket : Option Origin
  deriving DecidableEq, Repr

def Tree.empty : Tree where
  database := none
  overlay := false
  socket := none

/-- What is under `RFS_HOME`. The record is what the lock file parses as, if it does. -/
structure Contents where
  created : Bool
  record : Option LockRecord
  tree : Option Tree
  databases : List DatabaseFile
  cacheFiles : PathBuf → Option Bytes
  traceLog : Option Origin

/-- The session tree is in a home, and its database is one of the files. -/
structure Contents.Sane (contents : Contents) : Prop where
  created : contents.tree.isSome = true → contents.created = true
  named : ∀ database, contents.tree.bind Tree.database = some database →
    database < contents.databases.length

/-- Nothing that is there was made by one of the daemons. -/
structure Contents.Found (contents : Contents) : Prop extends contents.Sane where
  databases : ∀ file ∈ contents.databases, file.origin = .found
  socket : ∀ tree ∈ contents.tree, tree.socket = none ∨ tree.socket = some .found

def Contents.absent : Contents where
  created := false
  record := none
  tree := none
  databases := []
  cacheFiles := fun _ => none
  traceLog := none

/-! ### Database files -/

def schemaVersion : ℤ := 1

/-- The version of a file, checked against the one of the program. -/
def validateSchemaVersion (sqlite : Sqlite) (path : PathBuf) (version : ℤ) :
    Except SessionError Unit := do
  execute sqlite path .readSchemaVersion "read schema version"
  if version = schemaVersion then .ok ()
  else .error (failedPrecondition
    s!"unsupported state schema version {version}; expected {schemaVersion}")

/-- The stored session of a file, which may have no tables yet. -/
def DatabaseFile.readStoredSession [Uuid] (sqlite : Sqlite) (path : PathBuf)
    (file : DatabaseFile) : Except SessionError SessionMetadata :=
  match file.tables with
  | some tables => Session.readStoredSession sqlite path tables
  | none => .error
      (databaseError "read session metadata" path "no such table: session_metadata")

/-- Retained metadata, through a connection of its own. -/
def inspectStore [Uuid] (sqlite : Sqlite) (path : PathBuf) (file : Option DatabaseFile) :
    Except SessionError SessionMetadata := do
  execute sqlite path .openConnection "open connection"
  match file with
  | none => .error (databaseError "open connection" path "unable to open database file")
  | some file => do
      execute sqlite path .setBusyTimeout "set busy timeout"
      validateSchemaVersion sqlite path file.version
      file.readStoredSession sqlite path

namespace Contents

def sessionDatabase (contents : Contents) : Option DatabaseFile :=
  (contents.tree.bind Tree.database).bind fun database => contents.databases[database]?

def ensureReaderHome (home : PathBuf) (contents : Contents) : Except SessionError Unit :=
  if contents.created then .ok ()
  else .error (failedPrecondition
    s!"inspect session home {home.display}: path does not exist")

/-- The control endpoint, which needs only the home. -/
def controlEndpoint (home : PathBuf) (contents : Contents) : Except SessionError PathBuf := do
  ensureReaderHome home contents
  .ok (SessionLayout.new home).controlEndpoint

/-- Inspect the retained session without creating, locking or changing anything. -/
def inspect [Uuid] (home : PathBuf) (contents : Contents) (sqlite : Sqlite) :
    Except SessionError (Option Daemon.SessionInfo) := do
  ensureReaderHome home contents
  if contents.tree.isNone then .ok none
  else do
    let stored ← inspectStore sqlite (SessionLayout.new home).databasePath
      contents.sessionDatabase
    .ok (some
      { rootDigest := stored.rootDigest
        mountpoint := stored.mountpoint
        daemonPid := stored.daemonPid
        controlEndpoint := (SessionLayout.new home).controlEndpoint
        closed := stored.state = .closed })

/-! ### Changes -/

def mapTree (contents : Contents) (f : Tree → Tree) : Contents :=
  { contents with tree := contents.tree.map f }

def dropSocket (contents : Contents) : Contents :=
  contents.mapTree fun tree => { tree with socket := none }

def createDatabase (contents : Contents) (origin : Origin) : Contents :=
  { contents with
    tree := contents.tree.map fun tree =>
      { tree with database := some contents.databases.length }
    databases := contents.databases ++ [{ origin := origin, version := 0, tables := none }] }

def writeDatabase (contents : Contents) (database : ℕ) (f : DatabaseFile → DatabaseFile) :
    Contents :=
  { contents with databases := contents.databases.modify database f }

end Contents

end Home

end RemoteFs
