import RemoteFs.Upload.EncodeSpec

/-!
# Uploading the missing blobs

The candidate blobs are collected in a map keyed by digest, files first, so that
blobs with equal digests are uploaded once. The store is asked which of them are
missing, and exactly those are uploaded. The map is iterated in an order that is
not specified; the order is a parameter.

Uploading is complete because the encoded directories refer only to candidates:
the digest of every node was looked up among the hashed files and the directories
encoded before.
-/

namespace RemoteFs

namespace Upload

open SortBy RemoteFs.Tree Cas

/-- The blobs that may have to be uploaded, by digest. -/
abbrev Sources := List (Digest × Blob)

/-- Insert a blob unless its digest is already there. -/
def orInsertWith (sources : Sources) (digest : Digest) (blob : Blob) : Sources :=
  match sources.lookup digest with
  | some _ => sources
  | none => sources ++ [(digest, blob)]

def sourcesByDigest [Sha256] (tree : EncodedDirectoryTree) : Sources :=
  let sources := tree.fileBlobs.foldl
    (fun sources file => orInsertWith sources file.1 (Blob.fromFilePath file.1 file.2)) []
  tree.directories.foldl
    (fun sources directory =>
      orInsertWith sources directory.digest (Blob.fromBytes directory.bytes)) sources

structure UploadObjectStats where
  uploadedBlobs : ℕ
  reusedBlobs : ℕ
  bytesUploaded : ℕ
  deriving DecidableEq, Repr

/-- The blob of a digest the store reported missing. -/
def missingSource (sources : Sources) (digest : Digest) : Except UploadError Blob :=
  match sources.lookup digest with
  | some blob => .ok blob
  | none => .error (.unexpectedMissingDigest digest)

/-- Upload what the store does not hold; `keys` is the iteration order of the
map. -/
def uploadEncodedTree [Sha256] {σ : Type} (keys : Sources → List Digest)
    (store : BlobStore σ) (tree : EncodedDirectoryTree) (s : σ) :
    Except UploadError UploadObjectStats × σ :=
  let sources := sourcesByDigest tree
  let digests := keys sources
  match store.findMissingBlobs digests s with
  | (.error source, s) =>
      (withContext (.error (.cas source))
        s!"check {digests.length} unique CAS digest(s) for upload", s)
  | (.ok missing, s) =>
      match missing.mapM (missingSource sources) with
      | .error error => (.error error, s)
      | .ok missingSources =>
          match store.uploadBlobs missingSources s with
          | (.error source, s) =>
              (withContext (.error (.cas source))
                s!"upload {missing.length} missing CAS object(s)", s)
          | (.ok stats, s) =>
              (.ok
                { uploadedBlobs := stats.uploadedBlobs
                  reusedBlobs := digests.length - missing.length
                  bytesUploaded := stats.bytesUploaded }, s)

section Sources

theorem mem_keys_orInsertWith (sources : Sources) (digest : Digest) (blob : Blob)
    (d : Digest) :
    d ∈ (orInsertWith sources digest blob).map Prod.fst ↔
      d ∈ sources.map Prod.fst ∨ d = digest := by
  unfold orInsertWith
  cases hlookup : sources.lookup digest with
  | none => simp
  | some found =>
      have hmem := List.mem_map_of_mem (f := Prod.fst) (Keyed.mem_of_lookup_eq_some hlookup)
      constructor
      · exact fun h => .inl h
      · rintro (h | rfl)
        · exact h
        · exact hmem

theorem mem_orInsertWith (sources : Sources) (digest : Digest) (blob : Blob)
    (pair : Digest × Blob) (h : pair ∈ orInsertWith sources digest blob) :
    pair ∈ sources ∨ pair = (digest, blob) := by
  unfold orInsertWith at h
  split at h
  · exact .inl h
  · simpa using h

theorem mem_keys_foldl_orInsertWith {α : Type} (digest : α → Digest) (blob : α → Blob)
    (items : List α) (sources : Sources) (d : Digest) :
    d ∈ (items.foldl (fun sources item => orInsertWith sources (digest item) (blob item))
        sources).map Prod.fst ↔
      d ∈ sources.map Prod.fst ∨ ∃ item ∈ items, d = digest item := by
  induction items generalizing sources with
  | nil => simp
  | cons item items ih =>
      rw [List.foldl_cons, ih, mem_keys_orInsertWith, or_assoc]
      simp

theorem mem_foldl_orInsertWith {α : Type} (digest : α → Digest) (blob : α → Blob)
    (items : List α) (sources : Sources) (pair : Digest × Blob)
    (h : pair ∈ items.foldl (fun sources item => orInsertWith sources (digest item) (blob item))
      sources) :
    pair ∈ sources ∨ ∃ item ∈ items, pair = (digest item, blob item) := by
  induction items generalizing sources with
  | nil => exact .inl h
  | cons item items ih =>
      rw [List.foldl_cons] at h
      rcases ih _ h with hmem | ⟨other, hother, rfl⟩
      · rcases mem_orInsertWith _ _ _ _ hmem with hmem | rfl
        · exact .inl hmem
        · exact .inr ⟨item, List.mem_cons_self, rfl⟩
      · exact .inr ⟨other, List.mem_cons_of_mem _ hother, rfl⟩

variable [Sha256]

theorem mem_keys_sourcesByDigest (tree : EncodedDirectoryTree) (d : Digest) :
    d ∈ (sourcesByDigest tree).map Prod.fst ↔
      (∃ file ∈ tree.fileBlobs, d = file.1) ∨
        ∃ directory ∈ tree.directories, d = directory.digest := by
  unfold sourcesByDigest
  rw [mem_keys_foldl_orInsertWith (fun directory : EncodedDirectory => directory.digest),
    mem_keys_foldl_orInsertWith (fun file : Digest × PathBuf => file.1)]
  simp

theorem mem_sourcesByDigest (tree : EncodedDirectoryTree) (pair : Digest × Blob)
    (h : pair ∈ sourcesByDigest tree) :
    (∃ file ∈ tree.fileBlobs, pair = (file.1, Blob.fromFilePath file.1 file.2)) ∨
      ∃ directory ∈ tree.directories,
        pair = (directory.digest, Blob.fromBytes directory.bytes) := by
  rcases mem_foldl_orInsertWith (fun directory : EncodedDirectory => directory.digest)
    (fun directory => Blob.fromBytes directory.bytes) _ _ _ h with hfile | hdirectory
  · rcases mem_foldl_orInsertWith (fun file : Digest × PathBuf => file.1)
      (fun file => Blob.fromFilePath file.1 file.2) _ _ _ hfile with hnil | hfile
    · cases hnil
    · exact .inl hfile
  · exact .inr hdirectory

end Sources

/-- The digests reachable from the root through the encoded messages. -/
inductive Reachable (tree : EncodedDirectoryTree) : Digest → Prop where
  | root : Reachable tree tree.rootDigest
  | file {directory : EncodedDirectory} {node : Reapi.FileNode} {digest : Digest} :
      Reachable tree directory.digest → directory ∈ tree.directories →
        node ∈ directory.directory.files → node.digest = some digest.toReapi →
          Reachable tree digest
  | directory {directory : EncodedDirectory} {node : Reapi.DirectoryNode} {digest : Digest} :
      Reachable tree directory.digest → directory ∈ tree.directories →
        node ∈ directory.directory.directories → node.digest = some digest.toReapi →
          Reachable tree digest

/-- An encoded directory refers to hashed files and to encoded directories. -/
structure Closed [Sha256] (fileDigests : List Digest) (encoded : List EncodedDirectory)
    (directory : EncodedDirectory) : Prop where
  digest_eq : directory.digest = Digest.forBytes directory.bytes
  files : ∀ node ∈ directory.directory.files, ∃ digest ∈ fileDigests,
    node.digest = some digest.toReapi
  directories : ∀ node ∈ directory.directory.directories, ∃ child ∈ encoded,
    node.digest = some child.digest.toReapi

section Closure

variable [Sha256] [Prost]

/-- The digests a builder carries come from the two maps. -/
structure DigestsFrom (fileDigests directoryDigests : PathMap) (builder : DirectoryBuilder) :
    Prop where
  files : ∀ entry ∈ builder.files, entry.digest ∈ fileDigests.map Prod.snd
  directories : ∀ entry ∈ builder.directories, entry.digest ∈ directoryDigests.map Prod.snd

omit [Sha256] [Prost] in
theorem encodeEntry_digestsFrom (fileDigests directoryDigests : PathMap)
    (entry : LocalDirectoryChild) (builder builder' : DirectoryBuilder)
    (h : DigestsFrom fileDigests directoryDigests builder)
    (hstep : encodeEntry fileDigests directoryDigests builder entry = .ok builder') :
    DigestsFrom fileDigests directoryDigests builder' := by
  cases entry with
  | file file =>
      simp only [encodeEntry] at hstep
      split at hstep
      · cases hstep
      · next digest hlookup =>
          rw [Result.mapError_eq_ok_iff, DirectoryBuilder.addFile_eq_ok_iff] at hstep
          obtain ⟨-, rfl⟩ := hstep
          refine ⟨?_, h.directories⟩
          intro other hother
          rcases List.mem_append.mp hother with hother | hother
          · exact h.files other hother
          · rw [List.mem_singleton.mp hother]
            exact List.mem_map_of_mem (f := Prod.snd) (Keyed.mem_of_lookup_eq_some hlookup)
  | directory directory =>
      simp only [encodeEntry] at hstep
      split at hstep
      · cases hstep
      · next digest hlookup =>
          rw [Result.mapError_eq_ok_iff, DirectoryBuilder.addDirectory_eq_ok_iff] at hstep
          obtain ⟨-, rfl⟩ := hstep
          refine ⟨h.files, ?_⟩
          intro other hother
          rcases List.mem_append.mp hother with hother | hother
          · exact h.directories other hother
          · rw [List.mem_singleton.mp hother]
            exact List.mem_map_of_mem (f := Prod.snd) (Keyed.mem_of_lookup_eq_some hlookup)
  | symlink symlink =>
      simp only [encodeEntry, Result.mapError_eq_ok_iff, DirectoryBuilder.addSymlink_eq_ok_iff]
        at hstep
      obtain ⟨-, rfl⟩ := hstep
      exact ⟨h.files, h.directories⟩

theorem encodeDirectory_eq_ok (directory : LocalDirectory)
    (fileDigests directoryDigests : PathMap) (encoded : EncodedDirectory)
    (h : encodeDirectory directory fileDigests directoryDigests = .ok encoded) :
    ∃ builder : DirectoryBuilder, encoded = builder.canonical ∧
      DigestsFrom fileDigests directoryDigests builder := by
  rw [encodeDirectory, Result.bind_eq_ok_iff] at h
  obtain ⟨builder, hloop, hencode⟩ := h
  rw [Result.mapError_eq_ok_iff, DirectoryBuilder.encode_eq_ok_iff] at hencode
  refine ⟨builder, hencode.2, Result.foldlM_invariant _ (DigestsFrom fileDigests
    directoryDigests) ?_ _ _ _ ⟨?_, ?_⟩ hloop⟩
  · exact encodeEntry_digestsFrom fileDigests directoryDigests
  · exact fun entry hentry => absurd hentry List.not_mem_nil
  · exact fun entry hentry => absurd hentry List.not_mem_nil

/-- What the encoding loop keeps: the map holds digests of encoded directories,
and the encoded directories refer to files and to each other. -/
structure EncodedSoFar (fileDigests : List Digest) (encoded : List EncodedDirectory)
    (directoryDigests : PathMap) : Prop where
  map_encoded : ∀ pair ∈ directoryDigests, ∃ directory ∈ encoded, pair.2 = directory.digest
  closed : ∀ directory ∈ encoded, Closed fileDigests encoded directory

omit [Prost] in
theorem Closed.mono {fileDigests : List Digest} {encoded encoded' : List EncodedDirectory}
    {directory : EncodedDirectory} (h : Closed fileDigests encoded directory)
    (hsub : encoded ⊆ encoded') : Closed fileDigests encoded' directory where
  digest_eq := h.digest_eq
  files := h.files
  directories := by
    intro node hnode
    obtain ⟨child, hchild, hdigest⟩ := h.directories node hnode
    exact ⟨child, hsub hchild, hdigest⟩

theorem EncodedSoFar.step (fileDigests : PathMap) (done : List EncodedDirectory)
    (directory : LocalDirectory) (state : EncodeState) (encoded : EncodedDirectory)
    (state' : EncodeState) (h : EncodedSoFar (fileDigests.map Prod.snd) done state.1)
    (hstep : encodeStep fileDigests directory state = .ok (encoded, state')) :
    EncodedSoFar (fileDigests.map Prod.snd) (done ++ [encoded]) state'.1 := by
  simp only [encodeStep, Result.bind_eq_ok_iff, withContext_eq_ok_iff, Except.ok.injEq] at hstep
  obtain ⟨result, hencode, heq⟩ := hstep
  cases heq
  obtain ⟨builder, hcanonical, hfrom⟩ := encodeDirectory_eq_ok _ _ _ _ hencode
  have hsub : done ⊆ done ++ [encoded] := List.subset_append_left done [encoded]
  refine ⟨?_, ?_⟩
  · intro pair hpair
    rcases List.mem_cons.mp hpair with rfl | hpair
    · exact ⟨encoded, by simp, rfl⟩
    · obtain ⟨other, hother, hdigest⟩ := h.map_encoded pair hpair
      exact ⟨other, hsub hother, hdigest⟩
  · intro other hother
    rcases List.mem_append.mp hother with hother | hother
    · exact (h.closed other hother).mono hsub
    · rw [List.mem_singleton.mp hother, hcanonical]
      refine ⟨rfl, ?_, ?_⟩
      · intro node hnode
        obtain ⟨entry, hentry, rfl⟩ := List.mem_map.mp hnode
        exact ⟨entry.digest, hfrom.files entry ((mem_sortBy _ _ _).mp hentry), rfl⟩
      · intro node hnode
        obtain ⟨entry, hentry, rfl⟩ := List.mem_map.mp hnode
        obtain ⟨pair, hpair, hsnd⟩ :=
          List.mem_map.mp (hfrom.directories entry ((mem_sortBy _ _ _).mp hentry))
        obtain ⟨child, hchild, hdigest⟩ := h.map_encoded pair hpair
        refine ⟨child, ?_, ?_⟩
        · rw [← hcanonical]
          exact hsub hchild
        · rw [← hdigest, hsnd]
          rfl

/-- The tree the encoder returns: its root is an encoded directory, its
directories are closed, and its file blobs are the hashed files. -/
theorem encodeLocalTree_closed (scanned : LocalTree) (fileDigests : List FileDigest)
    (encoded : EncodedDirectoryTree)
    (h : encodeLocalTree scanned fileDigests = .ok encoded) :
    (∃ directory ∈ encoded.directories, encoded.rootDigest = directory.digest) ∧
      (∀ directory ∈ encoded.directories,
        Closed (fileDigests.map FileDigest.digest) encoded.directories directory) ∧
      encoded.fileBlobs = fileDigests.map fun file => (file.digest, file.absolutePath) := by
  rw [encodeLocalTree, Result.bind_eq_ok_iff] at h
  obtain ⟨⟨directories, directoryDigests, warnings⟩, hloop, hroot⟩ := h
  have hend := Result.mapState_invariant (encodeStep (digestByPath fileDigests))
    (fun done state => EncodedSoFar ((digestByPath fileDigests).map Prod.snd) done state.1)
    (EncodedSoFar.step (digestByPath fileDigests)) scanned.directories [] ([], {}) directories
    (directoryDigests, warnings) ⟨by simp, by simp⟩ hloop
  rw [List.nil_append] at hend
  dsimp only at hroot hend
  split at hroot
  · cases hroot
  · next rootDigest hlookup =>
      cases hroot
      refine ⟨hend.map_encoded _ (Keyed.mem_of_lookup_eq_some hlookup), ?_, rfl⟩
      intro directory hdirectory
      have hclosed := hend.closed directory hdirectory
      refine ⟨hclosed.digest_eq, ?_, hclosed.directories⟩
      intro node hnode
      obtain ⟨digest, hdigest, hnode⟩ := hclosed.files node hnode
      refine ⟨digest, ?_, hnode⟩
      simpa [digestByPath, Function.comp_def] using hdigest

end Closure

section Store

variable [Sha256] [Prost] {σ : Type}

/-- Every reachable digest is a candidate. -/
theorem mem_keys_of_reachable (scanned : LocalTree) (fileDigests : List FileDigest)
    (encoded : EncodedDirectoryTree)
    (h : encodeLocalTree scanned fileDigests = .ok encoded) (digest : Digest)
    (hreach : Reachable encoded digest) :
    digest ∈ (sourcesByDigest encoded).map Prod.fst := by
  obtain ⟨hroot, hclosed, hblobs⟩ := encodeLocalTree_closed scanned fileDigests encoded h
  rw [mem_keys_sourcesByDigest]
  cases hreach with
  | root =>
      obtain ⟨directory, hdirectory, heq⟩ := hroot
      exact .inr ⟨directory, hdirectory, heq⟩
  | file _ hdirectory hnode hdigest =>
      obtain ⟨other, hother, heq⟩ := (hclosed _ hdirectory).files _ hnode
      have hsame := Digest.toReapi_injective (Option.some.inj (hdigest.symm.trans heq))
      obtain ⟨file, hfile, hfileDigest⟩ := List.mem_map.mp hother
      refine .inl ⟨(file.digest, file.absolutePath), ?_, hsame.trans hfileDigest.symm⟩
      rw [hblobs]
      exact List.mem_map_of_mem hfile
  | directory _ hdirectory hnode hdigest =>
      obtain ⟨child, hchild, heq⟩ := (hclosed _ hdirectory).directories _ hnode
      exact .inr ⟨child, hchild,
        Digest.toReapi_injective (Option.some.inj (hdigest.symm.trans heq))⟩

/-- The files still hold the bytes that were hashed. -/
def FilesUnchanged (files : PathBuf → Option Bytes) (fileDigests : List FileDigest) : Prop :=
  ∀ file ∈ fileDigests, ∃ bytes, files file.absolutePath = some bytes ∧
    Digest.forBytes bytes = file.digest

theorem source_contents (scanned : LocalTree) (fileDigests : List FileDigest)
    (encoded : EncodedDirectoryTree)
    (h : encodeLocalTree scanned fileDigests = .ok encoded) (files : PathBuf → Option Bytes)
    (hfiles : FilesUnchanged files fileDigests) (digest : Digest) (blob : Blob)
    (hmem : (digest, blob) ∈ sourcesByDigest encoded) :
    blob.digest = digest ∧ ∃ bytes, blob.contents.read files = some bytes ∧
      Digest.forBytes bytes = digest := by
  obtain ⟨-, hclosed, hblobs⟩ := encodeLocalTree_closed scanned fileDigests encoded h
  rcases mem_sourcesByDigest encoded _ hmem with ⟨file, hfile, heq⟩ | ⟨directory, hdir, heq⟩
  · cases heq
    rw [hblobs] at hfile
    obtain ⟨hashed, hhashed, rfl⟩ := List.mem_map.mp hfile
    obtain ⟨bytes, hread, hdigest⟩ := hfiles hashed hhashed
    exact ⟨rfl, bytes, hread, hdigest⟩
  · cases heq
    have hdigest := (hclosed directory hdir).digest_eq
    exact ⟨hdigest.symm, directory.bytes, rfl, hdigest.symm⟩

omit [Prost] in
/-- A successful upload asked for every candidate and uploaded a candidate for
every digest of the answer. -/
theorem uploadEncodedTree_eq_ok (keys : Sources → List Digest) (store : BlobStore σ)
    (tree : EncodedDirectoryTree) (s s' : σ) (stats : UploadObjectStats)
    (h : uploadEncodedTree keys store tree s = (.ok stats, s')) :
    ∃ missing middle blobs upload,
      store.findMissingBlobs (keys (sourcesByDigest tree)) s = (.ok missing, middle) ∧
      List.Forall₂ (fun digest blob => (digest, blob) ∈ sourcesByDigest tree) missing blobs ∧
      store.uploadBlobs blobs middle = (.ok upload, s') := by
  unfold uploadEncodedTree at h
  dsimp only at h
  split at h
  · cases h
  · next missing middle hfind =>
      split at h
      · cases h
      · next blobs hblobs =>
          split at h
          · cases h
          · next upload final hupload =>
              cases h
              refine ⟨missing, middle, blobs, upload, hfind, ?_, hupload⟩
              refine ((Result.mapM_eq_ok_iff _ _ _).mp hblobs).imp ?_
              intro digest blob hsource
              unfold missingSource at hsource
              split at hsource
              · next found hlookup =>
                  cases hsource
                  exact Keyed.mem_of_lookup_eq_some hlookup
              · cases hsource

theorem candidate_present (store : BlobStore σ) (content : σ → Digest → Option Bytes)
    (files : PathBuf → Option Bytes) (hstore : store.Honest content files)
    (keys : Sources → List Digest)
    (hkeys : ∀ sources, (keys sources).Perm (sources.map Prod.fst)) (scanned : LocalTree)
    (fileDigests : List FileDigest) (encoded : EncodedDirectoryTree)
    (hencoded : encodeLocalTree scanned fileDigests = .ok encoded)
    (hfiles : FilesUnchanged files fileDigests) (s s' : σ) (hs : Verified content s)
    (stats : UploadObjectStats)
    (hupload : uploadEncodedTree keys store encoded s = (.ok stats, s')) (digest : Digest)
    (hdigest : digest ∈ (sourcesByDigest encoded).map Prod.fst) :
    ∃ bytes, content s' digest = some bytes ∧ Digest.forBytes bytes = digest := by
  obtain ⟨missing, middle, blobs, upload, hfind, hblobs, hput⟩ :=
    uploadEncodedTree_eq_ok keys store encoded s s' stats hupload
  have hmiddle := hstore.findMissing_verified _ _ _ _ hfind hs
  cases hheld : content s digest with
  | some bytes =>
      have hkept := hstore.findMissing_keeps _ _ _ _ hfind digest bytes hheld
      exact ⟨bytes, hstore.upload_keeps _ _ _ _ hput digest bytes hkept, hs _ _ hheld⟩
  | none =>
      have hmissing := hstore.findMissing_complete _ _ _ _ hfind digest
        ((hkeys _).mem_iff.mpr hdigest) hheld
      obtain ⟨blob, hblob, hsource⟩ := Result.exists_of_forall₂_of_mem hblobs hmissing
      obtain ⟨hname, -⟩ :=
        source_contents scanned fileDigests encoded hencoded files hfiles digest blob hsource
      obtain ⟨bytes, hpresent, hcontents⟩ := hstore.upload_present _ _ _ _ hput blob hblob
      rw [hname] at hpresent hcontents
      refine ⟨bytes, hpresent, ?_⟩
      rcases hcontents with ⟨other, hother, hotherDigest, hwritten⟩ | hold
      · obtain ⟨key, -, hkey⟩ := Result.exists_of_forall₂_of_mem hblobs.flip hother
        obtain ⟨hkeyName, written, hotherRead, hdigest⟩ :=
          source_contents scanned fileDigests encoded hencoded files hfiles key other hkey
        rw [hotherRead, Option.some.injEq] at hwritten
        rw [← hwritten, hdigest, ← hkeyName, hotherDigest]
      · exact hmiddle _ _ hold

omit [Prost] in
/-- An answer with a digest that was not requested fails the upload before the
store is asked to upload anything. -/
theorem uploadEncodedTree_unrequested (keys : Sources → List Digest)
    (hkeys : ∀ sources, (keys sources).Perm (sources.map Prod.fst)) (store : BlobStore σ)
    (tree : EncodedDirectoryTree) (s middle : σ) (missing : List Digest)
    (hfind : store.findMissingBlobs (keys (sourcesByDigest tree)) s = (.ok missing, middle))
    (digest : Digest) (hdigest : digest ∈ missing)
    (hunrequested : digest ∉ keys (sourcesByDigest tree)) :
    ∃ error, uploadEncodedTree keys store tree s = (.error error, middle) := by
  have hlookup : (sourcesByDigest tree).lookup digest = none := by
    cases hfound : (sourcesByDigest tree).lookup digest with
    | none => rfl
    | some blob =>
        have hmem := List.mem_map_of_mem (f := Prod.fst) (Keyed.mem_of_lookup_eq_some hfound)
        exact absurd ((hkeys _).mem_iff.mpr hmem) hunrequested
  have hsource : missingSource (sourcesByDigest tree) digest =
      .error (.unexpectedMissingDigest digest) := by
    rw [missingSource, hlookup]
  unfold uploadEncodedTree
  dsimp only
  rw [hfind]
  dsimp only
  cases hall : missing.mapM (missingSource (sourcesByDigest tree)) with
  | error error => exact ⟨error, rfl⟩
  | ok blobs => exact absurd hall (Result.mapM_ne_ok_of_mem _ _ _ _ hdigest hsource blobs)

omit [Prost] in
theorem filesUnchanged_of_served (disk : Disk) (workers : HashWorkers)
    (localFiles : List LocalFile) (options : UploadOptions) (fileDigests : List FileDigest)
    (hhash : hashFiles disk workers localFiles options = .ok fileDigests)
    (files : PathBuf → Option Bytes)
    (hserved : ∀ file ∈ localFiles, ∃ bytes, Serves disk file.absolutePath bytes ∧
      files file.absolutePath = some bytes) : FilesUnchanged files fileDigests := by
  intro digest hdigest
  obtain ⟨file, hfile, hresult⟩ := hashFile_of_mem_hashFiles disk workers localFiles options
    fileDigests hhash digest hdigest
  obtain ⟨bytes, hserves, hcontent⟩ := hserved file hfile
  obtain ⟨hpath, hbytes⟩ := hashFile_digest disk file bytes (hashChunkBytes options)
    (hashChunkBytes_pos options) hserves digest hresult
  exact ⟨bytes, hpath ▸ hcontent, hbytes.symm⟩

/-- Upload completeness: after a successful upload every digest reachable from
the root is in the store with content that hashes to it, and an answer with a
digest that was not requested fails the call with no upload. -/
theorem uploadEncodedTree_complete (store : BlobStore σ)
    (content : σ → Digest → Option Bytes) (files : PathBuf → Option Bytes)
    (hstore : store.Honest content files) (keys : Sources → List Digest)
    (hkeys : ∀ sources, (keys sources).Perm (sources.map Prod.fst)) (scanned : LocalTree)
    (disk : Disk) (workers : HashWorkers) (options : UploadOptions)
    (fileDigests : List FileDigest)
    (hhash : hashFiles disk workers scanned.files options = .ok fileDigests)
    (hserved : ∀ file ∈ scanned.files, ∃ bytes, Serves disk file.absolutePath bytes ∧
      files file.absolutePath = some bytes)
    (encoded : EncodedDirectoryTree)
    (hencoded : encodeLocalTree scanned fileDigests = .ok encoded) (s : σ)
    (hs : Verified content s) :
    (∀ stats s', uploadEncodedTree keys store encoded s = (.ok stats, s') →
      ∀ digest, Reachable encoded digest →
        ∃ bytes, content s' digest = some bytes ∧ Digest.forBytes bytes = digest) ∧
    (∀ missing middle, store.findMissingBlobs (keys (sourcesByDigest encoded)) s =
        (.ok missing, middle) →
      (∃ digest ∈ missing, digest ∉ keys (sourcesByDigest encoded)) →
        ∃ error, uploadEncodedTree keys store.recorded encoded (s, []) =
          (.error error, middle, [])) := by
  have hfiles := filesUnchanged_of_served disk workers scanned.files options fileDigests hhash
    files hserved
  constructor
  · intro stats s' hupload digest hreach
    exact candidate_present store content files hstore keys hkeys scanned fileDigests encoded
      hencoded hfiles s s' hs stats hupload digest
      (mem_keys_of_reachable scanned fileDigests encoded hencoded digest hreach)
  · intro missing middle hfind hunrequested
    obtain ⟨digest, hdigest, hnot⟩ := hunrequested
    refine uploadEncodedTree_unrequested keys hkeys store.recorded encoded (s, [])
      (middle, []) missing ?_ digest hdigest hnot
    simp only [BlobStore.recorded, hfind]

end Store

namespace Sample

def scanned : LocalTree where
  root := root
  directories :=
    [{ relativePath := [], absolutePath := root, metadata := rootMetadata,
       entries := [.file ⟨"a", [.utf8 "a"], root ++ [.utf8 "a"], fileMetadata⟩] }]
  files := [⟨"a", [.utf8 "a"], root ++ [.utf8 "a"], fileMetadata⟩]
  symlinks := 0
  warnings := {}

def workers : HashWorkers where
  completion := [0]
  joinError := "task was cancelled"

def fileDigests : List FileDigest :=
  [⟨[.utf8 "a"], root ++ [.utf8 "a"], Tree.Sample.contentDigest, 2⟩]

def rootDigest : Digest :=
  Tree.Sample.directoryDigest

def encoded : EncodedDirectoryTree where
  rootDigest := rootDigest
  directories := [⟨rootDigest, Tree.Sample.bytes, Tree.Sample.directory, {}⟩]
  fileBlobs := [(Tree.Sample.contentDigest, root ++ [.utf8 "a"])]
  warnings := {}

theorem hashFiles_eq : @hashFiles (Tree.Sample.sha256 Tree.Sample.blobs) disk workers
    scanned.files options = .ok fileDigests := by
  rfl

theorem encodeLocalTree_eq : @encodeLocalTree (Tree.Sample.sha256 Tree.Sample.blobs)
    (Prost.prescribed Tree.Sample.messages) scanned fileDigests =
      .ok encoded := by
  rfl

/-- The content of the files of the nested directory. -/
def nestedFiles (path : PathBuf) : Option Bytes :=
  if path = root ++ [.utf8 "a"] then some Tree.Sample.content
  else if path = root ++ [.utf8 "d", .utf8 "b"] ∨ path = root ++ [.utf8 "z"] then
    some Tree.Sample.otherContent
  else none

def nestedScanned : LocalTree where
  root := root
  directories :=
    [{ relativePath := [.utf8 "d"], absolutePath := root ++ [.utf8 "d"],
       metadata := innerMetadata,
       entries :=
        [.file ⟨"b", [.utf8 "d", .utf8 "b"], root ++ [.utf8 "d", .utf8 "b"],
          innerFileMetadata⟩] },
     { relativePath := [], absolutePath := root, metadata := rootMetadata,
       entries :=
        [.file ⟨"a", [.utf8 "a"], root ++ [.utf8 "a"], fileMetadata⟩,
         .directory ⟨"d", [.utf8 "d"], innerMetadata⟩,
         .symlink ⟨"l", "d/b", linkMetadata⟩,
         .file ⟨"z", [.utf8 "z"], root ++ [.utf8 "z"], otherFileMetadata⟩] }]
  files :=
    [⟨"a", [.utf8 "a"], root ++ [.utf8 "a"], fileMetadata⟩,
     ⟨"b", [.utf8 "d", .utf8 "b"], root ++ [.utf8 "d", .utf8 "b"], innerFileMetadata⟩,
     ⟨"z", [.utf8 "z"], root ++ [.utf8 "z"], otherFileMetadata⟩]
  symlinks := 1
  warnings := {}

def nestedWorkers : HashWorkers where
  completion := [2, 0, 1]
  joinError := "task was cancelled"

def nestedDigests : List FileDigest :=
  [⟨[.utf8 "a"], root ++ [.utf8 "a"], Tree.Sample.contentDigest, 2⟩,
   ⟨[.utf8 "d", .utf8 "b"], root ++ [.utf8 "d", .utf8 "b"], Tree.Sample.otherDigest, 2⟩,
   ⟨[.utf8 "z"], root ++ [.utf8 "z"], Tree.Sample.otherDigest, 2⟩]

def nestedEncoded : EncodedDirectoryTree where
  rootDigest := Tree.Sample.nestedDigest
  directories :=
    [⟨Tree.Sample.innerDigest, Tree.Sample.innerBytes, Tree.Sample.inner, {}⟩,
     ⟨Tree.Sample.nestedDigest, Tree.Sample.nestedBytes, Tree.Sample.nested, {}⟩]
  fileBlobs :=
    [(Tree.Sample.contentDigest, root ++ [.utf8 "a"]),
     (Tree.Sample.otherDigest, root ++ [.utf8 "d", .utf8 "b"]),
     (Tree.Sample.otherDigest, root ++ [.utf8 "z"])]
  warnings := {}

theorem nestedScanned_eq :
    scanLocalDirectoryWithOptions root nestedListed options = .ok nestedScanned := by
  rfl

theorem nestedDigests_eq : @hashFiles (Tree.Sample.sha256 Tree.Sample.nestedBlobs) nestedDisk
    nestedWorkers nestedScanned.files options = .ok nestedDigests := by
  rfl

set_option maxRecDepth 4000 in
theorem nestedEncoded_eq : @encodeLocalTree (Tree.Sample.sha256 Tree.Sample.nestedBlobs)
    (Prost.prescribed Tree.Sample.nestedMessages) nestedScanned nestedDigests =
      .ok nestedEncoded := by
  rfl

theorem content_verified :
    @Verified (Tree.Sample.sha256 Tree.Sample.nestedBlobs) _
      (fun held digest => held.lookup digest)
      [(Tree.Sample.contentDigest, Tree.Sample.content)] := by
  intro digest bytes h
  have hmem := Keyed.mem_of_lookup_eq_some h
  rw [List.mem_singleton, Prod.mk.injEq] at hmem
  obtain ⟨rfl, rfl⟩ := hmem
  decide +kernel

theorem nestedFiles_served : ∀ file ∈ nestedScanned.files, ∃ bytes,
    Serves nestedDisk file.absolutePath bytes ∧ nestedFiles file.absolutePath = some bytes := by
  intro file hfile
  simp only [nestedScanned, List.mem_cons, List.not_mem_nil, or_false] at hfile
  rcases hfile with rfl | rfl | rfl
  · exact ⟨_, nestedDisk_serves _ _ (.inl ⟨rfl, rfl⟩), rfl⟩
  · exact ⟨_, nestedDisk_serves _ _ (.inr ⟨.inl rfl, rfl⟩), rfl⟩
  · exact ⟨_, nestedDisk_serves _ _ (.inr ⟨.inr rfl, rfl⟩), rfl⟩

end Sample

set_option maxRecDepth 4000 in
/-- The theorem at the nested directory and a store that holds one of its contents: the upload
succeeds and leaves all files and directories in the store. -/
theorem uploadEncodedTree_complete_sample :
    letI : Sha256 := Tree.Sample.sha256 Tree.Sample.nestedBlobs
    ∃ stats held,
      uploadEncodedTree (fun sources => sources.map Prod.fst) (memoryStore Sample.nestedFiles)
        Sample.nestedEncoded [(Tree.Sample.contentDigest, Tree.Sample.content)] =
          (.ok stats, held) ∧
      stats.uploadedBlobs = 3 ∧ stats.reusedBlobs = 1 ∧
      ∀ digest, Reachable Sample.nestedEncoded digest →
        ∃ bytes, held.lookup digest = some bytes ∧ Digest.forBytes bytes = digest := by
  let _ : Sha256 := Tree.Sample.sha256 Tree.Sample.nestedBlobs
  let _ : Prost := Prost.prescribed Tree.Sample.nestedMessages
  refine ⟨_, _, rfl, rfl, rfl, ?_⟩
  exact (uploadEncodedTree_complete (memoryStore Sample.nestedFiles) _ Sample.nestedFiles
    (memoryStore_honest Sample.nestedFiles) _ (fun _ => List.Perm.refl _) Sample.nestedScanned
    Sample.nestedDisk Sample.nestedWorkers Sample.options Sample.nestedDigests
    Sample.nestedDigests_eq Sample.nestedFiles_served Sample.nestedEncoded
    Sample.nestedEncoded_eq [(Tree.Sample.contentDigest, Tree.Sample.content)]
    Sample.content_verified).1 _ _ rfl

end Upload

end RemoteFs
