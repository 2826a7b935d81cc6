import RemoteFs.Session.Store
import RemoteFs.Tree.Decode

/-!
# The session facade

A session answers reads from its store and loads a directory the first time it
is needed: it reads the blob of the directory, decodes it and hands the children
to the store. Each operation is a function of the session and of what surrounds
the call: the failures SQLite reports, and the reads of the verified cache.
-/

namespace RemoteFs

namespace Session

open RemoteFs.Tree (NodeKind decodeDirectory)

structure IoCounters where
  directoryDownloads : ℕ
  directoryCacheHits : ℕ
  fileDownloads : ℕ
  fileCacheHits : ℕ
  deriving DecidableEq, Repr

def defaultMode : NodeKind → UInt32
  | .file => 0o444
  | .directory => 0o555
  | .symlink => 0o777

def projectInode (stored : StoreInode) : Inode where
  inode := stored.id
  parent := stored.parent.getD stored.id
  name := stored.name
  kind := stored.kind
  size :=
    match stored.kind with
    | .file => (stored.fileRemoteDigest.map Digest.sizeBytes).getD 0
    | .directory => 0
    | .symlink => (stored.symlinkTarget.map String.utf8ByteSize).getD 0
  mode := stored.mode.getD (defaultMode stored.kind)
  mtime := stored.mtime.getD .unixEpoch
  symlinkTarget := stored.symlinkTarget

/-! ### Decoding children -/

/-- `u32::try_from` on the nanoseconds of a timestamp. -/
def nodeTime (timestamp : Reapi.Timestamp) : Except SessionError NodeTime :=
  if timestamp.nanos < 0 then
    .error (internalError (s!"decode node mtime seconds {timestamp.seconds} nanos " ++
      s!"{timestamp.nanos}: unable to cast nanos to a 32-bit unsigned integer"))
  else
    match NodeTime.new timestamp.seconds.toInt timestamp.nanos.toInt.toNat with
    | some time => .ok time
    | none => .error (internalError (s!"decode node mtime seconds {timestamp.seconds} " ++
        s!"nanos {timestamp.nanos}: invalid timestamp"))

def nodeMetadata (properties : Option Reapi.NodeProperties) :
    Except SessionError (Option UInt32 × Option NodeTime) :=
  match properties with
  | none => .ok (none, none)
  | some properties => do
      let mtime ← transposed nodeTime properties.mtime
      .ok (properties.unixMode, mtime)

def remoteDigest (kind name : String) (digest : Option Reapi.Digest) :
    Except SessionError Digest :=
  match digest with
  | none => .error (internalError s!"decode {kind} node `{name}`: missing digest")
  | some digest => (Digest.fromReapi digest).mapError fun error =>
      internalError (s!"error translating digest of {kind} node {name} from REAPI digest: " ++
        error.display)

def fileChild (node : Reapi.FileNode) : Except SessionError NewRemoteInode := do
  let (mode, mtime) ← nodeMetadata node.nodeProperties
  let digest ← remoteDigest "file" node.name node.digest
  .ok { name := node.name, mode := mode, mtime := mtime, content := .file digest }

def directoryChild (node : Reapi.DirectoryNode) : Except SessionError NewRemoteInode := do
  let (mode, mtime) ← nodeMetadata node.nodeProperties
  let digest ← remoteDigest "directory" node.name node.digest
  .ok { name := node.name, mode := mode, mtime := mtime, content := .directory digest }

def symlinkChild (node : Reapi.SymlinkNode) : Except SessionError NewRemoteInode := do
  let (mode, mtime) ← nodeMetadata node.nodeProperties
  .ok { name := node.name, mode := mode, mtime := mtime, content := .symlink node.target }

/-- The children of a decoded directory: files, directories, symlinks. -/
def decodedDirectoryChildren (directory : Reapi.Directory) :
    Except SessionError (List NewRemoteInode) := do
  let files ← directory.files.mapM fileChild
  let directories ← directory.directories.mapM directoryChild
  let symlinks ← directory.symlinks.mapM symlinkChild
  .ok (files ++ directories ++ symlinks)

end Session

/-- An open session: its root, its store and its metrics. -/
structure Session where
  rootDigest : Digest
  store : Session.SessionStore
  counters : Session.IoCounters

namespace Session

open RemoteFs.Tree (NodeKind decodeDirectory)

/-- What surrounds one operation: the failures of its inode read, of a directory
load and of its last read, and the reads of the verified cache and the overlay.
The flag of a cache read says whether the blob was downloaded. -/
structure Surroundings where
  inodeSqlite : Sqlite
  loadSqlite : Sqlite
  readSqlite : Sqlite
  readBlob : Digest → Except SessionError (Bytes × Bool)
  readRange : Digest → ℕ → ℕ → Except SessionError (Bytes × Bool)
  readOverlay : PathBuf → ℕ → ℕ → Except SessionError Bytes

section Operations

variable [Uuid] (env : Surroundings) (session : Session)

def getVisibleInode (inode : InodeId) : Except SessionError StoreInode := do
  match ← session.store.inode env.inodeSqlite inode with
  | some stored =>
      if stored.tombstone then .error (notFound s!"inode {inode.display} is not visible")
      else .ok stored
  | none => .error (notFound s!"inode {inode.display} doesn't exist")

def getInode (inode : InodeId) : Except SessionError Inode := do
  let stored ← getVisibleInode env session inode
  .ok (projectInode stored)

omit [Uuid] in
def recordDirectoryRead (downloaded : Bool) : Session :=
  { session with
    counters :=
      if downloaded then
        { session.counters with
          directoryDownloads := session.counters.directoryDownloads + 1 }
      else
        { session.counters with
          directoryCacheHits := session.counters.directoryCacheHits + 1 } }

omit [Uuid] in
def recordFileRead (downloaded : Bool) : Session :=
  { session with
    counters :=
      if downloaded then
        { session.counters with fileDownloads := session.counters.fileDownloads + 1 }
      else
        { session.counters with fileCacheHits := session.counters.fileCacheHits + 1 } }

variable [Sha256] [Prost]

omit [Uuid] in
/-- Read and decode the children of a directory blob. -/
def fetchChildren (digest : Digest) : Except SessionError (List NewRemoteInode × Bool) := do
  let (bytes, downloaded) ← env.readBlob digest
  let decoded ← (decodeDirectory digest bytes).mapError fun source =>
    internalError s!"decode directory blob {digest.display}: {source.display}"
  let children ← decodedDirectoryChildren decoded
  .ok (children, downloaded)

/-- The children a load hands to the store: none when the directory is loaded. -/
def childrenToLoad (inode : InodeId) :
    Except SessionError (Option (List NewRemoteInode × Bool)) := do
  let directory ← getVisibleInode env session inode
  if directory.kind ≠ .directory then
    .error (notDirectory
      s!"load directory inode {inode.display}: actual kind is {directory.kind.display}")
  else if directory.directoryLoaded = some true then .ok none
  else
    match directory.directoryRemoteDigest with
    | none => .error (internalError (s!"directory inode {inode.display} is not loaded but " ++
        "has no backing remote digest to fetch from the blob store"))
    | some digest => do
        let fetched ← fetchChildren env digest
        .ok (some fetched)

def ensureDirectoryLoaded (inode : InodeId) : Except SessionError Unit × Session :=
  match childrenToLoad env session inode with
  | .error e => (.error e, session)
  | .ok none => (.ok (), session)
  | .ok (some (children, downloaded)) =>
      match session.store.getOrCreateRemoteDirChildren env.loadSqlite inode children with
      | (.error e, store) => (.error e, { session with store := store })
      | (.ok _, store) =>
          (.ok (), { session with store := store }.recordDirectoryRead downloaded)

def readChild (parent : InodeId) (name : String) : Except SessionError Inode := do
  match ← session.store.child env.readSqlite parent name with
  | some child =>
      if child.tombstone then
        .error (notFound (s!"look up child `{name}` in directory inode {parent.display}: " ++
          "entry is not visible"))
      else .ok (projectInode child)
  | none =>
      .error (notFound (s!"look up child `{name}` in directory inode {parent.display}: " ++
        "entry does not exist"))

def lookupChild (parent : InodeId) (name : String) : Except SessionError Inode × Session :=
  match ensureDirectoryLoaded env session parent with
  | (.error e, session) => (.error e, session)
  | (.ok (), session) => (readChild env session parent name, session)

/-- Read the visible child rows of a loaded directory. -/
def readChildren (inode : InodeId) : Except SessionError (List Inode) := do
  let children ← session.store.getDirectoryChildren env.readSqlite inode
  .ok ((children.filter fun child => !child.tombstone).map projectInode)

def listDirectory (inode : InodeId) : Except SessionError (List Inode) × Session :=
  match ensureDirectoryLoaded env session inode with
  | (.error e, session) => (.error e, session)
  | (.ok (), session) => (readChildren env session inode, session)

omit [Sha256] [Prost] in
def readStored (inode : InodeId) (stored : StoreInode) (offset size : ℕ) :
    Except SessionError Bytes × Session :=
  if stored.kind = .directory then
    (.error (isDirectory s!"read inode {inode.display}: actual kind is directory"), session)
  else if stored.kind ≠ .file then
    (.error (internalError
      s!"read inode {inode.display}: actual kind is {stored.kind.display}"), session)
  else
    match stored.fileOverlayPath, stored.fileRemoteDigest with
    | some path, _ => (env.readOverlay path offset size, session)
    | none, none =>
        (.error (internalError s!"read inode {inode.display}: file has no backing digest"),
          session)
    | none, some digest =>
        match env.readRange digest offset size with
        | .error e => (.error e, session)
        | .ok (bytes, downloaded) => (.ok bytes, session.recordFileRead downloaded)

omit [Sha256] [Prost] in
/-- Read a range of a file, from the overlay or the cache. -/
def readRange (inode : InodeId) (offset size : ℕ) : Except SessionError Bytes × Session :=
  match getVisibleInode env session inode with
  | .error e => (.error e, session)
  | .ok stored => readStored env session inode stored offset size

end Operations

end Session

end RemoteFs
