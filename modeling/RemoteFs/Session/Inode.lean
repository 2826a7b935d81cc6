import RemoteFs.Digest.Text
import RemoteFs.Session.Error
import RemoteFs.Tree.Metadata

/-!
# Inodes of a session

An inode identity is positive, and a modification time lies in the range the
protobuf `Timestamp` has; both are structures that carry the fact, so the
readers of the database are the only place where it is checked.

`InodeRow` and `SessionMetadataRow` are rows as SQLite stores them: integers
are numbers, booleans are integers, and kinds, digests and lifecycles are text.
`StoreInode` and `SessionMetadata` are what the validated reads return.
-/

namespace RemoteFs

namespace Session

open RemoteFs.Tree (NodeKind)

structure InodeId where
  value : ℤ
  pos : 0 < value
  deriving DecidableEq

namespace InodeId

def root : InodeId where
  value := 1
  pos := by decide

@[ext] theorem ext {a b : InodeId} (h : a.value = b.value) : a = b := by
  cases a
  cases b
  simpa using h

/-- Validate an inode number supplied by an external adapter. -/
def new (value : UInt64) : Except SessionError InodeId :=
  if i64Max < value.toNat then
    .error (internalError
      s!"validate external inode value {value}: outside the supported range")
  else if h : 0 < (value.toNat : ℤ) then .ok ⟨value.toNat, h⟩
  else .error (internalError "validate external inode value 0: inode is not positive")

def get (inode : InodeId) : ℕ :=
  inode.value.toNat

def sqlite (inode : InodeId) : ℤ :=
  inode.value

def fromSqlite (value : ℤ) : Except SessionError InodeId :=
  if h : 0 < value then .ok ⟨value, h⟩
  else .error (internalError s!"decode stored inode {value}: value is not positive")

def display (inode : InodeId) : String :=
  toString inode.get

@[simp] theorem fromSqlite_sqlite (inode : InodeId) : fromSqlite inode.sqlite = .ok inode :=
  dif_pos inode.pos

@[simp] theorem sqlite_inj {a b : InodeId} : a.sqlite = b.sqlite ↔ a = b :=
  ⟨fun h => ext h, fun h => h ▸ rfl⟩

end InodeId

def minTimestampSeconds : ℤ := -62135596800
def maxTimestampSeconds : ℤ := 253402300799

def SupportedTime (seconds : ℤ) (nanos : ℕ) : Prop :=
  (minTimestampSeconds ≤ seconds ∧ seconds ≤ maxTimestampSeconds) ∧ nanos < 1000000000

instance (seconds : ℤ) (nanos : ℕ) : Decidable (SupportedTime seconds nanos) :=
  inferInstanceAs (Decidable (_ ∧ _))

structure NodeTime where
  seconds : ℤ
  nanos : ℕ
  supported : SupportedTime seconds nanos
  deriving DecidableEq

namespace NodeTime

def unixEpoch : NodeTime where
  seconds := 0
  nanos := 0
  supported := by decide

def new (seconds : ℤ) (nanos : ℕ) : Option NodeTime :=
  if h : SupportedTime seconds nanos then some ⟨seconds, nanos, h⟩ else none

@[simp] theorem new_eq_self (time : NodeTime) : new time.seconds time.nanos = some time :=
  dif_pos time.supported

end NodeTime

inductive SessionLifecycle where
  | initializing
  | active
  | closed
  deriving DecidableEq, Repr

def SessionLifecycle.display : SessionLifecycle → String
  | .initializing => "initializing"
  | .active => "active"
  | .closed => "closed"

/-- A visible inode, as the session facade exposes it. -/
structure Inode where
  inode : InodeId
  parent : InodeId
  name : String
  kind : NodeKind
  size : ℕ
  mode : UInt32
  mtime : NodeTime
  symlinkTarget : Option String
  deriving DecidableEq

structure StoreInode where
  id : InodeId
  parent : Option InodeId
  name : String
  kind : NodeKind
  mode : Option UInt32
  mtime : Option NodeTime
  tombstone : Bool
  fileRemoteDigest : Option Digest
  fileOverlayPath : Option PathBuf
  fileContentDirty : Option Bool
  symlinkTarget : Option String
  directoryRemoteDigest : Option Digest
  directoryLoaded : Option Bool

inductive RemoteContent where
  | file (digest : Digest)
  | directory (digest : Digest)
  | symlink (target : String)

def RemoteContent.kind : RemoteContent → NodeKind
  | .file _ => .file
  | .directory _ => .directory
  | .symlink _ => .symlink

/-- A node decoded from a remote directory, before it has an identity. -/
structure NewRemoteInode where
  name : String
  mode : Option UInt32
  mtime : Option NodeTime
  content : RemoteContent

structure InodeRow where
  id : ℤ
  parentId : Option ℤ
  name : String
  kind : String
  mode : Option ℤ
  mtimeSeconds : Option ℤ
  mtimeNanos : Option ℤ
  tombstone : ℤ
  fileRemoteDigest : Option String
  fileOverlayPath : Option String
  fileContentDirty : Option ℤ
  symlinkTarget : Option String
  directoryRemoteDigest : Option String
  directoryLoaded : Option ℤ
  deriving DecidableEq

structure SessionMetadataRow where
  singleton : ℤ
  sessionId : String
  daemonPid : ℤ
  lifecycle : String
  rootDigestHash : String
  rootDigestSize : ℤ
  mountpoint : String
  createdAtSeconds : ℤ
  closedAtSeconds : Option ℤ
  logLevel : String
  logFormat : String
  deriving DecidableEq

structure SessionMetadata where
  daemonPid : UInt32
  state : SessionLifecycle
  rootDigest : Digest
  mountpoint : PathBuf

def kindText : NodeKind → String
  | .file => "file"
  | .directory => "directory"
  | .symlink => "symlink"

end Session

end RemoteFs
