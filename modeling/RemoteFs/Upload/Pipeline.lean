import RemoteFs.Upload.Missing

/-!
# Uploading a local directory

The stages in a row: scan, hash, encode, upload. After an upload that succeeded the store
holds every encoded directory and every file of the tree under its digest. What it held
before under one of these digests has the same digest, so this needs that SHA-256 does not
collide on the blobs that occur.
-/

namespace RemoteFs

namespace Upload

open RemoteFs.Tree Cas

structure UploadSummary where
  rootDigest : Digest
  files : ℕ
  directories : ℕ
  symlinks : ℕ
  uploadedBlobs : ℕ
  reusedBlobs : ℕ
  bytesUploaded : ℕ
  warnings : UploadWarnings
  deriving DecidableEq

section Model

variable [Sha256] [Prost] {σ : Type}

def encodeLocalDirectory (disk : Disk) (workers : HashWorkers) (root : PathBuf)
    (node : LocalNode) (options : UploadOptions) :
    Except UploadError (LocalTree × EncodedDirectoryTree) := do
  validateOptions options
  let tree ← withContext (scanLocalDirectoryWithOptions root node options)
    s!"scan local upload root {root.display}"
  let fileDigests ← withContext (hashFiles disk workers tree.files options)
    s!"hash {tree.files.length} file(s) under {tree.root.display}"
  let encoded ← withContext (encodeLocalTree tree fileDigests)
    "encode scanned local tree as canonical REAPI directories"
  .ok (tree, encoded)

def uploadLocalDirectory (keys : Sources → List Digest) (store : BlobStore σ) (disk : Disk)
    (workers : HashWorkers) (root : PathBuf) (node : LocalNode) (options : UploadOptions)
    (s : σ) : Except UploadError UploadSummary × σ :=
  match encodeLocalDirectory disk workers root node options with
  | .error error => (.error error, s)
  | .ok (tree, encoded) =>
      match uploadEncodedTree keys store encoded s with
      | (.error error, s) =>
          (withContext (.error error) "upload missing file and directory blobs to CAS", s)
      | (.ok upload, s) =>
          (.ok
            { rootDigest := encoded.rootDigest
              files := tree.files.length
              directories := tree.directories.length
              symlinks := tree.symlinks
              uploadedBlobs := upload.uploadedBlobs
              reusedBlobs := upload.reusedBlobs
              bytesUploaded := upload.bytesUploaded
              warnings := tree.warnings.mergeTree encoded.warnings }, s)

theorem encodeLocalDirectory_eq_ok_iff (disk : Disk) (workers : HashWorkers) (root : PathBuf)
    (node : LocalNode) (options : UploadOptions) (tree : LocalTree)
    (encoded : EncodedDirectoryTree) :
    encodeLocalDirectory disk workers root node options = .ok (tree, encoded) ↔
      validateOptions options = .ok () ∧
      scanLocalDirectoryWithOptions root node options = .ok tree ∧
      ∃ fileDigests, hashFiles disk workers tree.files options = .ok fileDigests ∧
        encodeLocalTree tree fileDigests = .ok encoded := by
  rw [encodeLocalDirectory, Result.check_bind_eq_ok_iff]
  simp only [Result.bind_eq_ok_iff, withContext_eq_ok_iff, Except.ok.injEq, Prod.mk.injEq]
  constructor
  · rintro ⟨hoptions, tree', hscan, fileDigests, hhash, encoded', hencode, rfl, rfl⟩
    exact ⟨hoptions, hscan, fileDigests, hhash, hencode⟩
  · rintro ⟨hoptions, hscan, fileDigests, hhash, hencode⟩
    exact ⟨hoptions, tree, hscan, fileDigests, hhash, encoded, hencode, rfl, rfl⟩

/-- What an upload that succeeded went through. -/
theorem uploadLocalDirectory_eq_ok {keys : Sources → List Digest} {store : BlobStore σ}
    {disk : Disk} {workers : HashWorkers} {root : PathBuf} {node : LocalNode}
    {options : UploadOptions} {s s' : σ} {summary : UploadSummary}
    (h : uploadLocalDirectory keys store disk workers root node options s =
      (.ok summary, s')) :
    ∃ tree encoded upload,
      encodeLocalDirectory disk workers root node options = .ok (tree, encoded) ∧
      uploadEncodedTree keys store encoded s = (.ok upload, s') ∧
      summary.rootDigest = encoded.rootDigest ∧
      summary.warnings = tree.warnings.mergeTree encoded.warnings := by
  rw [uploadLocalDirectory] at h
  split at h
  · cases h
  · next tree encoded hencode =>
      split at h
      · cases h
      · next upload s'' hupload =>
          cases h
          exact ⟨tree, encoded, upload, hencode, hupload, rfl, rfl⟩

end Model

/-! ### What the store holds afterwards -/

section Held

variable [Sha256] [Prost] {σ : Type}

def CollisionFree (blobs : Bytes → Prop) : Prop :=
  ∀ a b, blobs a → blobs b → Digest.forBytes a = Digest.forBytes b → a = b

/-- The blobs of a tree: its encoded directories and its files. -/
def TreeBlob (tree : LocalNode) (bytes : Bytes) : Prop :=
  (∃ directory ∈ tree.directories,
    bytes = (encodedDirectory directory.2.1 directory.2.2).bytes) ∨
  ∃ file ∈ tree.files, bytes = file.2.2

omit [Sha256] [Prost] in
theorem served_of_unchanged {disk : Disk} {root : PathBuf} {tree : LocalNode}
    {files : PathBuf → Option Bytes} (hdisk : Unchanged disk root tree)
    (hfiles : ∀ file ∈ tree.files, files (root ++ file.1) = some file.2.2)
    {scanned : List LocalFile}
    (hscanned : scanned.Perm ((LocalNode.walk [] tree).filterMap (localFile? root))) :
    ∀ file ∈ scanned, ∃ bytes, Serves disk file.absolutePath bytes ∧
      files file.absolutePath = some bytes := by
  intro file hfile
  rw [hscanned.mem_iff, LocalNode.filterMap_localFile] at hfile
  obtain ⟨walked, hwalked, rfl⟩ := List.mem_map.mp hfile
  exact ⟨walked.2.2, hdisk walked hwalked, hfiles walked hwalked⟩

/-- After an upload that succeeded, the root digest is the Merkle digest of the tree and
the store holds the directories and the files of the tree. -/
theorem uploadLocalDirectory_holds {keys : Sources → List Digest}
    (hkeys : ∀ sources, (keys sources).Perm (sources.map Prod.fst)) {store : BlobStore σ}
    {content : σ → Digest → Option Bytes} {files : PathBuf → Option Bytes}
    (hstore : store.Honest content files) {options : UploadOptions} {root : PathBuf}
    {tree : LocalNode} {metadata : Metadata} {listing : Option IoError}
    {entries : List (OsStr × LocalNode)} (hroot : tree = .directory metadata listing entries)
    (htree : Uploadable options tree) {disk : Disk} (hdisk : Unchanged disk root tree)
    (hfiles : ∀ file ∈ tree.files, files (root ++ file.1) = some file.2.2)
    {workers : HashWorkers} (hworkers : ∀ scanned,
      scanLocalDirectoryWithOptions root tree options = .ok scanned →
        workers.completion.Perm (List.range scanned.files.length))
    {s s' : σ} (hs : Verified content s) {summary : UploadSummary}
    (hupload : uploadLocalDirectory keys store disk workers root tree options s =
      (.ok summary, s'))
    (hcollision : CollisionFree fun bytes =>
      TreeBlob tree bytes ∨ ∃ digest, content s' digest = some bytes) :
    summary.rootDigest = merkle tree ∧
      (∀ directory ∈ tree.directories,
        content s' (encodedDirectory directory.2.1 directory.2.2).digest =
          some (encodedDirectory directory.2.1 directory.2.2).bytes) ∧
      ∀ file ∈ tree.files, content s' (Digest.forBytes file.2.2) = some file.2.2 := by
  obtain ⟨scanned, encoded, upload, hencode, hput, hsummary, -⟩ :=
    uploadLocalDirectory_eq_ok hupload
  obtain ⟨hoptions, hscan, digests, hhash, hencode⟩ :=
    (encodeLocalDirectory_eq_ok_iff _ _ _ _ _ _ _).mp hencode
  obtain ⟨scanned', hscan', hscanned, hstages⟩ := encodeStages_spec options hoptions root tree
    metadata listing entries hroot htree disk hdisk
  rw [hscan, Except.ok.injEq] at hscan'
  subst hscan'
  obtain ⟨digests', encoded', hhash', hencode', hmerkle, hdirectories, hblobs⟩ :=
    hstages workers (hworkers scanned hscan)
  rw [hhash, Except.ok.injEq] at hhash'
  subst hhash'
  rw [hencode, Except.ok.injEq] at hencode'
  subst hencode'
  have hunchanged := filesUnchanged_of_served disk workers scanned.files options digests hhash
    files (served_of_unchanged hdisk hfiles hscanned)
  -- What is held under the digest of a blob of the tree is the blob.
  have hpresent : ∀ bytes, TreeBlob tree bytes →
      Digest.forBytes bytes ∈ (sourcesByDigest encoded).map Prod.fst →
      content s' (Digest.forBytes bytes) = some bytes := by
    intro bytes hblob hkey
    obtain ⟨held, hheld, hdigest⟩ := candidate_present store content files hstore keys hkeys
      scanned digests encoded hencode hunchanged s s' hs upload hput _ hkey
    rw [hheld, hcollision held bytes (.inr ⟨_, hheld⟩) (.inl hblob) hdigest]
  refine ⟨hsummary.trans hmerkle, ?_, ?_⟩
  · intro directory hdirectory
    refine hpresent _ (.inl ⟨directory, hdirectory, rfl⟩) ?_
    rw [mem_keys_sourcesByDigest]
    refine .inr ⟨encodedDirectory directory.2.1 directory.2.2, ?_, rfl⟩
    exact hdirectories.mem_iff.mpr (List.mem_map_of_mem hdirectory)
  · intro file hfile
    refine hpresent _ (.inr ⟨file, hfile, rfl⟩) ?_
    rw [mem_keys_sourcesByDigest]
    refine .inl ⟨(Digest.forBytes file.2.2, root ++ file.1), ?_, rfl⟩
    exact hblobs.mem_iff.mpr (List.mem_map.mpr ⟨file, hfile, rfl⟩)

end Held

end Upload

end RemoteFs
