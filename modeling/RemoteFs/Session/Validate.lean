import RemoteFs.Session.Inode
import RemoteFs.Tree.Builder

/-!
# Validation of stored rows

Every read of the database goes through `validateInodeRow` or `validateSession`,
which decode the columns and check that the fields fit the kind and the place of
the node. `validateRemoteChildren` checks a proposed child set before it is
inserted. UUID parsing is a parameter, `Uuid`.
-/

namespace RemoteFs

class Uuid where
  parses : String → Bool

namespace PathBuf

def ofText (text : String) : PathBuf :=
  (text.toList.splitOn '/').map fun segment => .utf8 (String.ofList segment)

def isEmpty (path : PathBuf) : Bool :=
  path = [.utf8 ""]

def isAbsolute (path : PathBuf) : Bool :=
  path.head? = some (.utf8 "") ∧ 2 ≤ path.length

def hasParentDir (path : PathBuf) : Bool :=
  path.contains (.utf8 "..")

end PathBuf

namespace Session

open RemoteFs.Tree (NodeKind ValidName)

def u32TryFrom (value : ℤ) : Option UInt32 :=
  if 0 ≤ value ∧ value < 4294967296 then some (UInt32.ofNat value.toNat) else none

def validateInodeName (name : String) : Except SessionError Unit :=
  if name = "" ∨ '/' ∈ name.toList ∨ name = "." ∨ name = ".." then
    .error (internalError s!"invalid inode name `{name}`")
  else .ok ()

/-! ### Proposed children -/

/-- The loop over proposed children, carrying the names seen. -/
def validateRemoteChildrenFrom (names : List String) :
    List NewRemoteInode → Except SessionError Unit
  | [] => .ok ()
  | child :: children => do
      validateInodeName child.name
      if child.name ∈ names then
        .error (internalError s!"duplicate child name `{child.name}`")
      else if child.mode.any fun mode => mode > 0o7777 then
        .error (internalError
          s!"child inode `{child.name}` has invalid mode {child.mode.getD 0}")
      else validateRemoteChildrenFrom (child.name :: names) children

def validateRemoteChildren (children : List NewRemoteInode) : Except SessionError Unit :=
  validateRemoteChildrenFrom [] children

/-! ### Columns -/

def validateInodeMtime (inode : InodeId) (seconds nanos : Option ℤ) :
    Except SessionError (Option NodeTime) :=
  match seconds, nanos with
  | none, none => .ok none
  | some seconds, some nanos =>
      match (u32TryFrom nanos).bind fun nanos => NodeTime.new seconds nanos.toNat with
      | some time => .ok (some time)
      | none => .error (internalError s!"stored inode {inode.display} has invalid mtime")
  | _, _ => .error (internalError s!"stored inode {inode.display} has partial mtime")

def validateStoredMode (inode : InodeId) (mode : ℤ) : Except SessionError UInt32 :=
  match u32TryFrom mode with
  | some mode => .ok mode
  | none => .error (internalError s!"stored inode {inode.display} has invalid mode")

def validateStoredBool (inode : InodeId) (field : String) (value : ℤ) :
    Except SessionError Bool :=
  if value = 0 then .ok false
  else if value = 1 then .ok true
  else .error (internalError (s!"stored inode {inode.display} has {field} with invalid " ++
    s!"boolean, got {value}, want 0 or 1"))

def transposed {α β : Type} (validate : α → Except SessionError β) :
    Option α → Except SessionError (Option β)
  | none => .ok none
  | some value => (validate value).map some

def validateStoredDigest (inode : InodeId) (field : String) :
    Option String → Except SessionError (Option Digest) :=
  transposed fun value => (Digest.fromStr value).mapError fun error =>
    internalError s!"stored inode {inode.display} has invalid {field}: {error.display}"

/-! ### Inodes -/

def validateFileInode (inode : StoreInode) : Except SessionError Unit :=
  if inode.symlinkTarget.isSome ∨ inode.directoryRemoteDigest.isSome ∨
      inode.directoryLoaded.isSome ∨ inode.fileContentDirty.isNone then
    .error (internalError s!"file inode `{inode.name}` has invalid fields")
  else if inode.fileOverlayPath.any fun path =>
      PathBuf.isEmpty path || PathBuf.isAbsolute path || PathBuf.hasParentDir path then
    .error (internalError s!"file inode `{inode.name}` has an invalid overlay path")
  else if inode.fileOverlayPath.isNone ∧ inode.fileContentDirty = some true then
    .error (internalError s!"file inode `{inode.name}` is dirty but has no overlay path")
  else
    match inode.fileRemoteDigest, inode.fileOverlayPath with
    | none, none => .error (internalError (s!"file inode `{inode.name}` neither has a " ++
        "remote digest nor an overlay path for the file contents"))
    | some digest, some overlayPath =>
        .error (internalError (s!"file inode `{inode.name}` specified both remote digest " ++
          s!"{digest.display} and an overlay path {PathBuf.display overlayPath}, only one " ++
          "of these is permitted at a given time"))
    | _, _ => .ok ()

def validateSymlinkInode (inode : StoreInode) : Except SessionError Unit :=
  if inode.symlinkTarget.isNone ∨ inode.fileRemoteDigest.isSome ∨
      inode.fileOverlayPath.isSome ∨ inode.fileContentDirty.isSome ∨
      inode.directoryRemoteDigest.isSome ∨ inode.directoryLoaded.isSome then
    .error (internalError s!"symlink inode `{inode.name}` has invalid fields")
  else .ok ()

def validateDirectoryInode (inode : StoreInode) : Except SessionError Unit :=
  if inode.fileRemoteDigest.isSome ∨ inode.fileOverlayPath.isSome ∨
      inode.fileContentDirty.isSome ∨ inode.symlinkTarget.isSome then
    .error (internalError s!"directory inode `{inode.name}` has invalid fields")
  else if inode.directoryLoaded.isNone then
    .error (internalError
      s!"directory inode `{inode.name}` did not specify a boolean for loaded")
  else .ok ()

def validateInodeKind (inode : StoreInode) : Except SessionError Unit :=
  match inode.kind with
  | .file => validateFileInode inode
  | .symlink => validateSymlinkInode inode
  | .directory => validateDirectoryInode inode

def validateInodeHierarchy (inode : StoreInode) : Except SessionError Unit :=
  if inode.id = InodeId.root then
    match inode.parent with
    | none =>
        if inode.name ≠ "" then
          .error (internalError
            s!"root inode unexpected had name {inode.name}, expected empty name")
        else if inode.kind ≠ .directory then
          .error (internalError
            s!"root inode kind was {inode.kind.display}, expected directory")
        else if inode.directoryRemoteDigest.isNone then
          .error (internalError "root inode remote digest is missing")
        else if inode.directoryLoaded.isNone then
          .error (internalError "root inode was not loaded")
        else .ok ()
    | some parent =>
        .error (internalError
          s!"root inode unexpectedly had a parent inode with id {parent.display}")
  else
    match inode.parent with
    | some _ =>
        withContext (validateInodeName inode.name)
          s!"inode {inode.id.display} name validation failed"
    | none =>
        .error (internalError s!"inode {inode.id.display} is not root but has no parent")

def validateInode (inode : StoreInode) : Except SessionError Unit :=
  if inode.mode.any fun mode => mode > 0o7777 then
    .error (internalError s!"inode `{inode.name}` has invalid mode {inode.mode.getD 0}")
  else do
    validateInodeHierarchy inode
    validateInodeKind inode

def parseKind (inode : InodeId) (label : String) : Except SessionError NodeKind :=
  if label = "file" then .ok .file
  else if label = "directory" then .ok .directory
  else if label = "symlink" then .ok .symlink
  else .error (internalError s!"stored inode {inode.display} has invalid kind `{label}`")

def validateInodeRow (row : InodeRow) : Except SessionError StoreInode := do
  let inode ← withContext (InodeId.fromSqlite row.id)
    s!"decode stored inode identity {row.id}"
  let parent ← withContext (transposed InodeId.fromSqlite row.parentId)
    s!"decode parent identity of stored inode {inode.display}"
  let kind ← parseKind inode row.kind
  let mode ← transposed (validateStoredMode inode) row.mode
  let mtime ← withContext (validateInodeMtime inode row.mtimeSeconds row.mtimeNanos)
    s!"validate modification time of stored inode {inode.display}"
  let tombstone ← withContext (validateStoredBool inode "tombstone" row.tombstone)
    s!"validate tombstone of stored inode {inode.display}"
  let fileRemoteDigest ←
    withContext (validateStoredDigest inode "file remote digest" row.fileRemoteDigest)
      s!"validate remote file digest of stored inode {inode.display}"
  let fileContentDirty ←
    withContext (transposed (validateStoredBool inode "file content dirty")
      row.fileContentDirty)
      s!"validate dirty state of stored inode {inode.display}"
  let directoryRemoteDigest ←
    withContext (validateStoredDigest inode "directory remote digest"
      row.directoryRemoteDigest)
      s!"validate remote directory digest of stored inode {inode.display}"
  let directoryLoaded ←
    withContext (transposed (validateStoredBool inode "directory loaded")
      row.directoryLoaded)
      s!"validate loaded state of stored inode {inode.display}"
  let result : StoreInode :=
    { id := inode
      parent := parent
      name := row.name
      kind := kind
      mode := mode
      mtime := mtime
      tombstone := tombstone
      fileRemoteDigest := fileRemoteDigest
      fileOverlayPath := row.fileOverlayPath.map PathBuf.ofText
      fileContentDirty := fileContentDirty
      symlinkTarget := row.symlinkTarget
      directoryRemoteDigest := directoryRemoteDigest
      directoryLoaded := directoryLoaded }
  withContext (validateInode result) s!"validate stored inode {inode.display}"
  .ok result

/-! ### Session metadata -/

def parseLifecycle (label : String) : Except SessionError SessionLifecycle :=
  if label = "initializing" then .ok .initializing
  else if label = "active" then .ok .active
  else if label = "closed" then .ok .closed
  else .error (failedPrecondition "inspect session metadata: invalid lifecycle")

/-- A close time is stored exactly for a closed session. -/
def validateCloseTime (state : SessionLifecycle) (closedSeconds : Option ℤ) :
    Except SessionError Unit :=
  if state = .closed then
    if closedSeconds.any fun seconds => 0 ≤ seconds then .ok ()
    else .error (failedPrecondition
      "inspect session metadata: closed session has invalid close time")
  else if closedSeconds.isNone then .ok ()
  else .error (failedPrecondition
    "inspect session metadata: non-closed session has close time")

def validateDaemonPid (pid : ℤ) : Except SessionError UInt32 :=
  match u32TryFrom pid with
  | some pid => .ok pid
  | none => .error (failedPrecondition "inspect session metadata: invalid daemon pid")

def validateSession [Uuid] (row : SessionMetadataRow) :
    Except SessionError SessionMetadata :=
  if row.singleton ≠ 1 ∨ ¬ Uuid.parses row.sessionId ∨ row.daemonPid ≤ 0 ∨
      row.createdAtSeconds < 0 ∨ row.logLevel = "" ∨
      ¬ (row.logFormat = "text" ∨ row.logFormat = "json") then
    .error (failedPrecondition "inspect session metadata: invalid metadata")
  else do
    let state ← parseLifecycle row.lifecycle
    validateCloseTime state row.closedAtSeconds
    let daemonPid ← validateDaemonPid row.daemonPid
    let rootDigest ←
      (Digest.new row.rootDigestHash (Int64.ofInt row.rootDigestSize)).mapError fun error =>
        failedPrecondition
          s!"inspect session metadata: invalid root digest: {error.display}"
    .ok
      { daemonPid := daemonPid
        state := state
        rootDigest := rootDigest
        mountpoint := PathBuf.ofText row.mountpoint }

end Session

end RemoteFs
