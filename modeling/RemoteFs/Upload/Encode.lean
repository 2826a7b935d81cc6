import RemoteFs.Tree.RoundTrip
import RemoteFs.Upload.Scan

/-!
# Hashing and encoding a scanned tree

Files are hashed by concurrent workers. Each task has a slot of its own, the
slots are filled in the order the workers complete, and the results are awaited
in the order the tasks were spawned. The semaphore only bounds how many workers
run at once: it is never closed, so acquiring a permit cannot fail.

Encoding goes through the directories deepest first. The digests of the files
and of the directories encoded so far are looked up by relative path.
-/

namespace RemoteFs

namespace Upload

open SortBy RemoteFs.Tree Cas

structure FileDigest where
  relativePath : PathBuf
  absolutePath : PathBuf
  digest : Digest
  sizeBytes : ℕ
  deriving DecidableEq

/-- The read loop, with the bytes hashed so far and their count. -/
def hashReads (path : PathBuf) : List (Except IoError Bytes) → Bytes → ℕ →
    Except UploadError (Bytes × ℕ)
  | [], hashed, sizeBytes => .ok (hashed, sizeBytes)
  | .error source :: _, _, _ => .error (.filesystem path source)
  | .ok chunk :: rest, hashed, sizeBytes =>
      if chunk.length = 0 then .ok (hashed, sizeBytes)
      else hashReads path rest (hashed ++ chunk) (sizeBytes + chunk.length)

/-- Hash one regular file and compare its size with the scanned metadata. -/
def hashFile [Sha256] (disk : Disk) (file : LocalFile) (chunkBytes : ℕ) :
    Except UploadError FileDigest := do
  let reads ← (disk chunkBytes file.absolutePath).mapError (.filesystem file.absolutePath)
  let (hashed, sizeBytes) ← hashReads file.absolutePath reads [] 0
  if sizeBytes ≠ file.metadata.len then
    .error (.invalidOption "file_size"
      (s!"{file.absolutePath.display} changed size during upload: " ++
        s!"scanned {file.metadata.len} byte(s), read {sizeBytes} byte(s)"))
  else do
    let digest ←
      (Digest.new (hexEncode (Sha256.digest hashed).toList) (Int64.ofNat sizeBytes)).mapError
        fun source => .invalidOption "digest" source.display
    .ok
      { relativePath := file.relativePath, absolutePath := file.absolutePath,
        digest := digest, sizeBytes := sizeBytes }

/-- The order in which the hash workers complete, by task index, and what
awaiting a task that did not complete reports. -/
structure HashWorkers where
  completion : List ℕ
  joinError : String

/-- The slots of the tasks once the workers have completed. -/
def HashWorkers.slots (workers : HashWorkers) {β : Type} (hash : LocalFile → β)
    (files : List LocalFile) : List (Option β) :=
  workers.completion.foldl (fun slots i => slots.set i (files[i]?.map hash))
    (files.map fun _ => none)

def HashWorkers.await (workers : HashWorkers) (file : LocalFile)
    (slot : Option (Except UploadError FileDigest)) : Except UploadError FileDigest :=
  match slot with
  | none =>
      .error (.invalidOption "hash_workers"
        (s!"hash worker for {file.relativePath.display} did not complete: " ++
          workers.joinError))
  | some digest =>
      withContext digest s!"hash file {file.relativePath.display} in blocking worker"

/-- Hash scanned files using bounded worker concurrency. -/
def hashFiles [Sha256] (disk : Disk) (workers : HashWorkers) (files : List LocalFile)
    (options : UploadOptions) : Except UploadError (List FileDigest) := do
  validateOptions options
  let chunkBytes := hashChunkBytes options
  let slots := workers.slots (fun file => hashFile disk file chunkBytes) files
  let digests ← (files.zip slots).mapM fun task => workers.await task.1 task.2
  .ok (sortBy (fun digest => byteKey digest.relativePath.asBytes) digests)

/-- A map keyed by relative path; the latest insertion comes first. -/
abbrev PathMap := List (PathBuf × Digest)

def metadataFor (kind : NodeKind) (metadata : Metadata) : NodeMetadata where
  mode := some (metadata.mode &&& 0o7777)
  mtime := some { seconds := metadata.mtime, nanos := metadata.mtimeNsec.toInt32 }
  kind := kind

/-- One turn of the loop over the entries of a directory. -/
def encodeEntry (fileDigests directoryDigests : PathMap) (builder : DirectoryBuilder)
    (entry : LocalDirectoryChild) : Except UploadError DirectoryBuilder :=
  match entry with
  | .file file =>
      match fileDigests.lookup file.relativePath with
      | none =>
          .error (.invalidOption "file_digests"
            s!"missing digest for {file.relativePath.display}")
      | some digest =>
          (builder.addFile
            { name := file.name, digest := digest,
              metadata := metadataFor .file file.metadata }).mapError .tree
  | .directory directory =>
      match directoryDigests.lookup directory.relativePath with
      | none =>
          .error (.invalidOption "directory_digests"
            s!"missing digest for directory {directory.relativePath.display}")
      | some digest =>
          (builder.addDirectory
            { name := directory.name, digest := digest,
              metadata := metadataFor .directory directory.metadata }).mapError .tree
  | .symlink symlink =>
      (builder.addSymlink
        { name := symlink.name, target := symlink.target,
          metadata := metadataFor .symlink symlink.metadata }).mapError .tree

/-- Encode one scanned directory using previously computed child digests. -/
def encodeDirectory [Sha256] [Prost] (directory : LocalDirectory)
    (fileDigests directoryDigests : PathMap) : Except UploadError EncodedDirectory := do
  let builder ← directory.entries.foldlM (encodeEntry fileDigests directoryDigests)
    (DirectoryBuilder.withMetadata (metadataFor .directory directory.metadata))
  builder.encode.mapError .tree

structure EncodedDirectoryTree where
  rootDigest : Digest
  directories : List EncodedDirectory
  fileBlobs : List (Digest × PathBuf)
  warnings : TreeWarnings
  deriving DecidableEq

/-- The map the digests of a list of files are collected into. -/
def digestByPath (fileDigests : List FileDigest) : PathMap :=
  (fileDigests.map fun file => (file.relativePath, file.digest)).reverse

/-- What the encoding loop carries: the digests of the directories encoded so
far, and the warnings. -/
abbrev EncodeState := PathMap × TreeWarnings

def encodeStep [Sha256] [Prost] (fileDigests : PathMap) (directory : LocalDirectory)
    (state : EncodeState) : Except UploadError (EncodedDirectory × EncodeState) := do
  let encoded ←
    withContext (encodeDirectory directory fileDigests state.1)
      s!"encode local directory {directory.absolutePath.display}"
  .ok (encoded, (directory.relativePath, encoded.digest) :: state.1,
    state.2.merge encoded.warnings)

/-- Encode a scanned tree and matching file digests as canonical directories. -/
def encodeLocalTree [Sha256] [Prost] (tree : LocalTree) (fileDigests : List FileDigest) :
    Except UploadError EncodedDirectoryTree := do
  let (directories, directoryDigests, warnings) ←
    Result.mapState (encodeStep (digestByPath fileDigests)) tree.directories ([], {})
  match directoryDigests.lookup [] with
  | none =>
      .error (.invalidOption "root" "scanned tree did not include a root directory")
  | some rootDigest =>
      .ok
        { rootDigest := rootDigest
          directories := directories
          fileBlobs := fileDigests.map fun file => (file.digest, file.absolutePath)
          warnings := warnings }

end Upload

end RemoteFs
