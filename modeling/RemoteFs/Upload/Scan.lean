import Mathlib.Data.Prod.Lex
import RemoteFs.Upload.LocalTree

/-!
# Scanning a local directory

The scanner walks the tree depth first, the entries of each directory in
bytewise order of their names, and threads a state that collects the
directories, the regular files and the hard link warnings. The collected
directories are then sorted deepest first, so that children are encoded before
their parents.

Recursion over the tree hands every entry the scan of its own subtree
(`ListedEntry`), so that the loop over the sorted entries is an ordinary loop.
-/

namespace RemoteFs

namespace Upload

open SortBy RemoteFs.Tree Cas

def hashChunkBytesLimit : ℕ := 1024 * 1024

structure UploadOptions where
  hashWorkers : ℕ
  inFlightBytes : ℕ
  failOnUnsupportedNodes : Bool
  deriving DecidableEq, Repr

structure UploadWarnings where
  hardLinks : ℕ := 0
  maskedSetuid : ℕ := 0
  maskedSetgid : ℕ := 0
  absoluteSymlinks : ℕ := 0
  escapingSymlinks : ℕ := 0
  deriving DecidableEq, Repr

def UploadWarnings.mergeTree (self : UploadWarnings) (warnings : TreeWarnings) :
    UploadWarnings :=
  { self with
    maskedSetuid := self.maskedSetuid + warnings.maskedSetuid
    maskedSetgid := self.maskedSetgid + warnings.maskedSetgid
    absoluteSymlinks := self.absoluteSymlinks + warnings.absoluteSymlinks
    escapingSymlinks := self.escapingSymlinks + warnings.escapingSymlinks }

/-- Errors returned while scanning, hashing, encoding or uploading. -/
inductive UploadError where
  | tree (source : TreeError)
  | cas (source : CasError)
  | filesystem (path : PathBuf) (source : IoError)
  | invalidOption (name reason : String)
  | unexpectedMissingDigest (digest : Digest)
  | context (operation : String) (source : UploadError)

instance : ResultContextError UploadError where
  withContext source operation := .context operation source

structure LocalFile where
  name : String
  relativePath : PathBuf
  absolutePath : PathBuf
  metadata : Metadata
  deriving DecidableEq

/-- Reference to a child directory in a `LocalDirectory`. -/
structure LocalSubDirectory where
  name : String
  relativePath : PathBuf
  metadata : Metadata
  deriving DecidableEq

structure LocalSymlink where
  name : String
  target : String
  metadata : Metadata
  deriving DecidableEq

inductive LocalDirectoryChild where
  | file (file : LocalFile)
  | directory (directory : LocalSubDirectory)
  | symlink (symlink : LocalSymlink)
  deriving DecidableEq

/-- Scanned local directory and its immediate entries. -/
structure LocalDirectory where
  relativePath : PathBuf
  absolutePath : PathBuf
  metadata : Metadata
  entries : List LocalDirectoryChild
  deriving DecidableEq

structure LocalTree where
  root : PathBuf
  directories : List LocalDirectory
  files : List LocalFile
  symlinks : ℕ
  warnings : UploadWarnings

structure ScanState where
  directories : List LocalDirectory := []
  files : List LocalFile := []
  symlinks : ℕ := 0
  warnings : UploadWarnings := {}
  hardLinks : List (UInt64 × UInt64) := []

def validateOptions (options : UploadOptions) : Except UploadError Unit :=
  if options.hashWorkers = 0 then .error (.invalidOption "hash_workers" "must be at least 1")
  else if options.inFlightBytes = 0 then
    .error (.invalidOption "in_flight_bytes" "must be at least 1")
  else if options.inFlightBytes < options.hashWorkers then
    .error (.invalidOption "in_flight_bytes"
      s!"must be at least hash_workers ({options.hashWorkers}) so every worker has a read buffer")
  else .ok ()

def hashChunkBytes (options : UploadOptions) : ℕ :=
  min hashChunkBytesLimit (max (options.inFlightBytes / options.hashWorkers) 1)

def componentName (path : PathBuf) : Except TreeError String :=
  match path.getLast?.bind OsStr.toStr with
  | some name => .ok name
  | none => .error (.nonUtf8Name path)

namespace ScanState

/-- Record a regular file; a repeated `(dev, ino)` pair counts as a hard link. -/
def recordFile (state : ScanState) (file : LocalFile) : ScanState :=
  let identity := (file.metadata.dev, file.metadata.ino)
  if identity ∈ state.hardLinks then
    { state with
      files := state.files ++ [file]
      warnings := { state.warnings with hardLinks := state.warnings.hardLinks + 1 } }
  else
    { state with
      files := state.files ++ [file]
      hardLinks := identity :: state.hardLinks }

def recordDirectory (state : ScanState) (directory : LocalDirectory) : ScanState :=
  { state with directories := state.directories ++ [directory] }

def recordSymlink (state : ScanState) : ScanState :=
  { state with symlinks := state.symlinks + 1 }

end ScanState

/-- The scan of a directory at an absolute and a relative path. -/
abbrev DirectoryScan :=
  PathBuf → PathBuf → ScanState → Except UploadError (LocalDirectory × ScanState)

/-- A directory entry, with the scan of its node as a directory. -/
structure ListedEntry where
  fileName : OsStr
  node : LocalNode
  scan : DirectoryScan

/-- One turn of the loop over the sorted entries of a directory. -/
def scanEntry (options : UploadOptions) (path relativePath : PathBuf) (entry : ListedEntry)
    (state : ScanState) : Except UploadError (Option LocalDirectoryChild × ScanState) := do
  let childPath := path.join entry.fileName
  let name ← (componentName childPath).mapError UploadError.tree
  let childRelativePath := relativePath.join (.utf8 name)
  match entry.node with
  | .unreadable source => .error (.filesystem childPath source)
  | .file metadata _ =>
      let file : LocalFile :=
        { name := name, relativePath := childRelativePath, absolutePath := childPath,
          metadata := metadata }
      .ok (some (.file file), state.recordFile file)
  | .directory metadata _ _ => do
      let (directory, state) ←
        withContext (entry.scan childPath childRelativePath state)
          s!"scan child directory {childPath.display}"
      .ok
        (some (.directory
          { name := name, relativePath := childRelativePath, metadata := metadata }),
          state.recordDirectory directory)
  | .symlink metadata target =>
      match target with
      | .error source => .error (.filesystem childPath source)
      | .ok target =>
          match target.toStr with
          | none => .error (.tree (.nonUtf8SymlinkTarget childPath))
          | some target =>
              .ok (some (.symlink { name := name, target := target, metadata := metadata }),
                state.recordSymlink)
  | .special _ kind =>
      if options.failOnUnsupportedNodes then
        .error (.tree (.unsupportedNodeType childPath (nodeTypeName kind)))
      else .ok (none, state)

mutual

/-- Scan one directory and record its immediate child nodes. -/
def scanDirectory (options : UploadOptions) : LocalNode → DirectoryScan
  | .directory metadata listing entries => fun path relativePath state =>
      match listing with
      | some source => .error (.filesystem path source)
      | none => do
          let (children, state) ←
            Result.mapState (scanEntry options path relativePath)
              (sortBy (fun entry => byteKey entry.fileName.asBytes)
                (listEntries options entries)) state
          .ok
            ({ relativePath := relativePath, absolutePath := path, metadata := metadata,
               entries := children.filterMap id }, state)
  | .unreadable source => fun path _ _ => .error (.filesystem path source)
  | .file _ _ => fun path _ _ => .error (.filesystem path "Not a directory (os error 20)")
  | .symlink _ _ => fun path _ _ => .error (.filesystem path "Not a directory (os error 20)")
  | .special _ _ => fun path _ _ => .error (.filesystem path "Not a directory (os error 20)")

/-- The entries `read_dir` returns, each with the scan of its subtree. -/
def listEntries (options : UploadOptions) : List (OsStr × LocalNode) → List ListedEntry
  | [] => []
  | (name, node) :: rest => ⟨name, node, scanDirectory options node⟩ :: listEntries options rest

end

def pathDepth (path : PathBuf) : ℕ :=
  path.length

/-- The order of encoding: deepest first, then bytewise by path. -/
def encodingOrder (path : PathBuf) : ℕᵒᵈ ×ₗ List ℕ :=
  toLex (OrderDual.toDual (pathDepth path), byteKey path.asBytes)

def scanLocalDirectoryWithOptions (root : PathBuf) (node : LocalNode)
    (options : UploadOptions) : Except UploadError LocalTree := do
  validateOptions options
  match node with
  | .unreadable source => .error (.filesystem root source)
  | .directory _ _ _ => do
      let (rootDirectory, state) ← scanDirectory options node root [] {}
      let state := state.recordDirectory rootDirectory
      .ok
        { root := root
          directories :=
            sortBy (fun directory => encodingOrder directory.relativePath) state.directories
          files := state.files
          symlinks := state.symlinks
          warnings := state.warnings }
  | _ => .error (.invalidOption "root" s!"{root.display} is not a directory")

theorem listEntries_eq (options : UploadOptions) (entries : List (OsStr × LocalNode)) :
    listEntries options entries =
      entries.map fun entry => ⟨entry.1, entry.2, scanDirectory options entry.2⟩ := by
  induction entries with
  | nil => simp [listEntries]
  | cons entry rest ih => simp [listEntries, ih]

end Upload

end RemoteFs
