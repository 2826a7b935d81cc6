import RemoteFs.Library.SortBy
import RemoteFs.Session.Validate

/-!
# The SQLite repository of a session

`Database` holds the two tables and the counter from which `AUTOINCREMENT`
allocates identities. `insertInode` is an `INSERT` under the constraints of the
schema. What SQLite itself may do wrong is a parameter of each call: `Sqlite`
names the statements of the call that fail, and with which error.

A transaction works on a copy of the tables, which is kept when the commit
succeeds and dropped otherwise.
-/

namespace RemoteFs

namespace PathBuf

/-- The text of a path whose segments are all UTF-8. -/
def toStr (path : PathBuf) : Option String :=
  (path.mapM OsStr.toStr).map (String.intercalate "/")

end PathBuf

namespace Session

open RemoteFs.Tree (NodeKind)
open SortBy (sortBy)

structure Database where
  metadata : Option SessionMetadataRow
  inodes : List InodeRow
  sequence : ℤ

def Database.empty : Database where
  metadata := none
  inodes := []
  sequence := 0

/-- The statements of a call. The children of a directory are read once before
and once after they are created. -/
inductive Statement where
  | openConnection
  | setBusyTimeout
  | setJournalMode
  | enableForeignKeys
  | readSchemaVersion
  | createSchema
  | recordSchemaVersion
  | begin
  | commit
  | readSessionMetadata
  | insertSessionMetadata
  | markSessionClosed
  | getInodeById
  | lookupChild
  | prepareChildren (afterCreation : Bool)
  | listChildren (afterCreation : Bool)
  | decodeChild (afterCreation : Bool)
  | insertRemoteInode (index : ℕ)
  | markDirectoryLoaded

abbrev Sqlite := Statement → Option SqliteError

/-- A session store: where its database is, and what is in it. -/
structure SessionStore where
  databasePath : PathBuf
  database : Database

def databaseError (operation : String) (path : PathBuf) (source : SqliteError) :
    SessionError :=
  .database operation path source

def execute (sqlite : Sqlite) (path : PathBuf) (statement : Statement) (operation : String) :
    Except SessionError Unit :=
  match sqlite statement with
  | none => .ok ()
  | some source => .error (databaseError operation path source)

/-! ### Rows -/

/-- `INSERT INTO inodes`: the identity allocated and the tables afterwards. -/
def Database.insertInode (db : Database) (row : InodeRow) :
    Except SqliteError (ℤ × Database) :=
  if i64Max ≤ db.sequence then .error "database or disk is full"
  else if row.parentId.isSome ∧ ∃ other ∈ db.inodes,
      other.parentId = row.parentId ∧ other.name = row.name then
    .error "UNIQUE constraint failed: inodes.parent_id, inodes.name"
  else if ∃ parent ∈ row.parentId, ∀ other ∈ db.inodes, other.id ≠ parent then
    .error "FOREIGN KEY constraint failed"
  else
    .ok (db.sequence + 1,
      { db with
        inodes := db.inodes ++ [{ row with id := db.sequence + 1 }]
        sequence := db.sequence + 1 })

/-- `UPDATE inodes SET directory_loaded = 1 WHERE id = ?`. -/
def Database.markDirectoryLoaded (db : Database) (id : ℤ) : Database :=
  { db with
    inodes := db.inodes.map fun row =>
      if row.id = id then { row with directoryLoaded := some 1 } else row }

/-- The columns an insertion writes; the identity is allocated later. -/
def newRow (parent : Option InodeId) (inode : NewRemoteInode) : InodeRow where
  id := 0
  parentId := parent.map InodeId.sqlite
  name := inode.name
  kind := kindText inode.content.kind
  mode := inode.mode.map fun mode => (mode.toNat : ℤ)
  mtimeSeconds := inode.mtime.map NodeTime.seconds
  mtimeNanos := inode.mtime.map fun time => (time.nanos : ℤ)
  tombstone := 0
  fileRemoteDigest :=
    match inode.content with
    | .file digest => some digest.display
    | .directory _ => none
    | .symlink _ => none
  fileOverlayPath := none
  fileContentDirty :=
    match inode.content with
    | .file _ => some 0
    | .directory _ => none
    | .symlink _ => none
  symlinkTarget :=
    match inode.content with
    | .file _ => none
    | .directory _ => none
    | .symlink target => some target
  directoryRemoteDigest :=
    match inode.content with
    | .file _ => none
    | .directory digest => some digest.display
    | .symlink _ => none
  directoryLoaded :=
    match inode.content with
    | .file _ => none
    | .directory _ => some 0
    | .symlink _ => none

section Statements

variable [Uuid] (sqlite : Sqlite) (path : PathBuf) (db : Database)

def readStoredSession : Except SessionError SessionMetadata := do
  execute sqlite path .readSessionMetadata "read session metadata"
  match db.metadata with
  | none => .error (failedPrecondition
      ("db session is missing session metadata; either it wasn't seeded during session " ++
        "initialization or deleted accidentally"))
  | some row => validateSession row

def ensureActive : Except SessionError Unit := do
  let stored ← withContext (readStoredSession sqlite path db) "read session lifecycle state"
  if stored.state ≠ .active then
    .error (failedPrecondition
      s!"session lifecycle is {stored.state.display}, expected active")
  else .ok ()

omit [Uuid] in
def getInodeById (inodeId : InodeId) : Except SessionError (Option StoreInode) := do
  execute sqlite path .getInodeById "get inode by id"
  withContext (transposed validateInodeRow (db.inodes.find? fun row => row.id = inodeId.sqlite))
    s!"validate stored inode {inodeId.display}"

omit [Uuid] in
def lookupChildInDirInode (parentId : InodeId) (name : String) :
    Except SessionError (Option StoreInode) := do
  execute sqlite path .lookupChild "lookup child by name in dir inode"
  withContext (transposed validateInodeRow (db.inodes.find? fun row =>
      row.parentId = some parentId.sqlite ∧ row.name = name))
    s!"validate stored child `{name}` of directory inode {parentId.display}"

def Database.childRows (db : Database) (parent : InodeId) : List InodeRow :=
  sortBy (fun row => nameKey row.name)
    (db.inodes.filter fun row => row.parentId = some parent.sqlite)

omit [Uuid] in
def getDirectoryChildrenOn (afterCreation : Bool) (parent : InodeId) :
    Except SessionError (List StoreInode) := do
  execute sqlite path (.prepareChildren afterCreation) "prepare children"
  execute sqlite path (.listChildren afterCreation) "list children"
  execute sqlite path (.decodeChild afterCreation) "decode child"
  withContext ((db.childRows parent).mapM validateInodeRow)
    s!"validate stored children of directory inode {parent.display}"

omit [Uuid] in
def insertRemoteInode (index : ℕ) (parent : Option InodeId) (inode : NewRemoteInode) :
    Except SessionError (InodeId × Database) := do
  execute sqlite path (.insertRemoteInode index) "insert remote inode"
  let (id, db) ← (db.insertInode (newRow parent inode)).mapError fun source =>
    databaseError "insert remote inode" path source
  let id ← InodeId.fromSqlite id
  .ok (id, db)

omit [Uuid] in
/-- The loop that inserts the children of a directory. -/
def insertChildren (parent : InodeId) :
    ℕ → Database → List NewRemoteInode → Except SessionError Database
  | _, db, [] => .ok db
  | index, db, child :: children => do
      let (_, db) ← withContext (insertRemoteInode sqlite path db index (some parent) child)
        s!"insert child `{child.name}` in directory inode {parent.display}"
      insertChildren parent (index + 1) db children

def ensureInodeIsDir (inode : StoreInode) : Except SessionError Unit :=
  if inode.kind ≠ .directory then
    .error (notDirectory (s!"inode {inode.id.display} is not a directory; actual kind is " ++
      inode.kind.display))
  else .ok ()

omit [Uuid] in
/-- The part of the materialization that runs for an unloaded directory. -/
def createRemoteDirChildren (parent : InodeId) (children : List NewRemoteInode) :
    Except SessionError (List StoreInode × Database) := do
  withContext (validateRemoteChildren children)
    s!"validate children to create in directory inode {parent.display}"
  let db ← insertChildren sqlite path parent 0 db children
  execute sqlite path .markDirectoryLoaded "mark directory loaded"
  let db := db.markDirectoryLoaded parent.sqlite
  let stored ← withContext (getDirectoryChildrenOn sqlite path db true parent)
    s!"read children of directory inode {parent.display} after creation"
  .ok (stored, db)

/-- The body of the transaction of `getOrCreateRemoteDirChildren`. -/
def getOrCreateBody (parent : InodeId) (children : List NewRemoteInode) :
    Except SessionError (List StoreInode × Database) := do
  withContext (ensureActive sqlite path db)
    "check session lifecycle before materializing directory children"
  let found ← withContext (getInodeById sqlite path db parent)
    s!"read parent inode {parent.display} to create its children"
  match found with
  | none => .error (internalError
      s!"can't create children because parent inode {parent.display} is missing")
  | some parentInode => do
      withContext (ensureInodeIsDir parentInode)
        s!"can't create children for non-directory inode {parent.display}"
      let storedChildren ← withContext (getDirectoryChildrenOn sqlite path db false parent)
        s!"read stored children of directory inode {parent.display}"
      if parentInode.directoryLoaded = some true then .ok (storedChildren, db)
      else if storedChildren ≠ [] then
        .error (internalError
          s!"unloaded directory inode {parent.display} already has stored children")
      else createRemoteDirChildren sqlite path db parent children

end Statements

/-- The current whole second since the epoch, from the clock. -/
def nowSeconds (clock : ℤ) : Except SessionError ℤ :=
  if clock < 0 ∨ i64Max < clock then
    .error (internalError
      "read current session time: value is outside the supported range")
  else .ok clock

namespace SessionStore

variable [Uuid]

omit [Uuid] in
/-- Run a body inside a transaction and commit its result. -/
def withTransaction {α : Type} (store : SessionStore) (sqlite : Sqlite) (operation : String)
    (body : Database → Except SessionError (α × Database)) :
    Except SessionError α × SessionStore :=
  let result : Except SessionError (α × Database) := do
    execute sqlite store.databasePath .begin s!"begin {operation}"
    let result ← withContext (body store.database) s!"run {operation} transaction"
    execute sqlite store.databasePath .commit s!"commit {operation}"
    .ok result
  match result with
  | .ok (value, database) => (.ok value, { store with database := database })
  | .error error => (.error error, store)

omit [Uuid] in
def openDatabase (sqlite : Sqlite) (path : PathBuf) : Except SessionError Unit := do
  execute sqlite path .openConnection "open connection"
  execute sqlite path .setBusyTimeout "set busy timeout"
  execute sqlite path .setJournalMode "set journal mode"
  execute sqlite path .enableForeignKeys "enable foreign keys"

omit [Uuid] in
/-- Create the schema in a new database, whose version is zero. -/
def prepareSchema (sqlite : Sqlite) (path : PathBuf) : Except SessionError Unit := do
  execute sqlite path .readSchemaVersion "read schema version"
  execute sqlite path .createSchema "create schema"
  execute sqlite path .recordSchemaVersion "record schema version"

omit [Uuid] in
def insertSession (sqlite : Sqlite) (path : PathBuf) (db : Database) (sessionId : String)
    (daemonPid : UInt32) (rootDigest : Digest) (mountpoint : String) (createdAtSeconds : ℤ) :
    Except SessionError Database := do
  execute sqlite path .insertSessionMetadata "insert session metadata"
  .ok { db with
    metadata := some
      { singleton := 1
        sessionId := sessionId
        daemonPid := daemonPid.toNat
        lifecycle := "active"
        rootDigestHash := rootDigest.hash
        rootDigestSize := rootDigest.sizeBytes
        mountpoint := mountpoint
        createdAtSeconds := createdAtSeconds
        closedAtSeconds := none
        logLevel := "info"
        logFormat := "text" } }

def newRoot (rootDigest : Digest) : NewRemoteInode where
  name := ""
  mode := none
  mtime := none
  content := .directory rootDigest

omit [Uuid] in
def insertRootInode (sqlite : Sqlite) (path : PathBuf) (db : Database)
    (rootDigest : Digest) : Except SessionError Database := do
  let (id, db) ← insertRemoteInode sqlite path db 0 none (newRoot rootDigest)
  if id ≠ InodeId.root then
    .error (internalError
      s!"root inode was allocated id {id.display}, expected {InodeId.root.display}")
  else .ok db

def initializeDatabase (store : SessionStore) (sqlite : Sqlite) (sessionId : String)
    (daemonPid : UInt32) (rootDigest : Digest) (mountpoint : PathBuf) (clock : ℤ) :
    Except SessionError Unit × SessionStore :=
  match mountpoint.toStr with
  | none => (.error (internalError "mountpoint is not UTF-8"), store)
  | some mountpoint =>
      if ¬ Uuid.parses sessionId ∨ daemonPid = 0 then
        (.error (internalError "invalid session identity"), store)
      else
        match withContext (nowSeconds clock) "determine current time for session creation" with
        | .error error => (.error error, store)
        | .ok now =>
            store.withTransaction sqlite "initialize database" fun db => do
              let db ← insertSession sqlite store.databasePath db sessionId daemonPid
                rootDigest mountpoint now
              let db ← withContext (insertRootInode sqlite store.databasePath db rootDigest)
                "inserting root inode"
              .ok ((), db)

/-- Create the store of a session in a new database file. -/
def create (sqlite : Sqlite) (databasePath : PathBuf) (sessionId : String)
    (daemonPid : UInt32) (rootDigest : Digest) (mountpoint : PathBuf) (clock : ℤ) :
    Except SessionError SessionStore := do
  openDatabase sqlite databasePath
  prepareSchema sqlite databasePath
  let store : SessionStore := { databasePath := databasePath, database := .empty }
  match store.initializeDatabase sqlite sessionId daemonPid rootDigest mountpoint clock with
  | (.ok (), store) => .ok store
  | (.error error, _) => .error error

def inode (store : SessionStore) (sqlite : Sqlite) (inode : InodeId) :
    Except SessionError (Option StoreInode) := do
  withContext (ensureActive sqlite store.databasePath store.database)
    "check session lifecycle before reading inode"
  getInodeById sqlite store.databasePath store.database inode

def child (store : SessionStore) (sqlite : Sqlite) (parent : InodeId) (name : String) :
    Except SessionError (Option StoreInode) := do
  withContext (validateInodeName name)
    s!"invalid name {name} given to lookup in parent inode {parent.display}"
  withContext (ensureActive sqlite store.databasePath store.database)
    "check session lifecycle before reading child"
  lookupChildInDirInode sqlite store.databasePath store.database parent name

def getDirectoryChildren (store : SessionStore) (sqlite : Sqlite) (parent : InodeId) :
    Except SessionError (List StoreInode) := do
  withContext (ensureActive sqlite store.databasePath store.database)
    "check session lifecycle before listing children"
  getDirectoryChildrenOn sqlite store.databasePath store.database false parent

/-- Return a loaded child set, or materialize an unloaded one. -/
def getOrCreateRemoteDirChildren (store : SessionStore) (sqlite : Sqlite) (parent : InodeId)
    (children : List NewRemoteInode) : Except SessionError (List StoreInode) × SessionStore :=
  store.withTransaction sqlite "get or create directory children" fun db =>
    getOrCreateBody sqlite store.databasePath db parent children

def closedRow (row : SessionMetadataRow) (seconds : ℤ) : SessionMetadataRow :=
  { row with lifecycle := "closed", closedAtSeconds := some seconds }

def close (store : SessionStore) (sqlite : Sqlite) (clock : ℤ) :
    Except SessionError Unit × SessionStore :=
  match withContext (nowSeconds clock)
      "getting current time to set session close time in session state db" with
  | .error error => (.error error, store)
  | .ok seconds =>
      store.withTransaction sqlite "close session" fun db => do
        withContext (ensureActive sqlite store.databasePath db)
          "can't close already closed session"
        execute sqlite store.databasePath .markSessionClosed "mark session closed"
        .ok ((), { db with metadata := db.metadata.map fun row => closedRow row seconds })

end SessionStore

end Session

end RemoteFs
