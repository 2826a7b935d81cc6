import RemoteFs.Upload.HashSpec

/-!
# Hashing over short reads

A read of a file delivers some of the bytes that are there and fit the buffer, as many as it
likes but not none. The loop that hashes a file ends with the first read of nothing, so it
needs a buffer that is not empty; then it has read the whole content, however the content
was cut.
-/

namespace RemoteFs

namespace Upload

/-- How many bytes the successive reads of a file deliver, of those that are there and fit
the buffer. -/
structure ShortReads where
  count : ℕ → ℕ → ℕ
  legal : ∀ i, LegalCount (count i)

/-- What the read with number `i` delivers of the rest of a file. -/
def ShortReads.read (reads : ShortReads) (chunkBytes i : ℕ) (rest : Bytes) : Bytes :=
  rest.take (reads.count i (min chunkBytes rest.length))

/-- The read loop; absent when it has not ended after `fuel` reads. -/
def hashLoop (reads : ShortReads) (chunkBytes : ℕ) :
    ℕ → ℕ → Bytes → Bytes → ℕ → Option (Bytes × ℕ)
  | 0, _, _, _, _ => none
  | fuel + 1, i, rest, hashed, sizeBytes =>
      let chunk := reads.read chunkBytes i rest
      if chunk.length = 0 then some (hashed, sizeBytes)
      else
        hashLoop reads chunkBytes fuel (i + 1) (rest.drop chunk.length) (hashed ++ chunk)
          (sizeBytes + chunk.length)

/-- What follows the read loop: the size is compared and the digest built. -/
def finishHash [Sha256] (file : LocalFile) (hashed : Bytes) (sizeBytes : ℕ) :
    Except UploadError FileDigest :=
  if sizeBytes ≠ file.metadata.len then
    .error (.invalidOption "file_size"
      (s!"{file.absolutePath.display} changed size during upload: " ++
        s!"scanned {file.metadata.len} byte(s), read {sizeBytes} byte(s)"))
  else do
    let digest ←
      (Digest.new (hexEncode (Sha256.digest hashed).toList) (Int64.ofNat sizeBytes)).mapError
        fun source => .invalidOption "digest" source.display
    .ok
      { relativePath := file.relativePath, absolutePath := file.absolutePath,
        digest := digest, sizeBytes := sizeBytes }

/-- Hash a file that is open; absent when the loop has not ended after `fuel` reads. -/
def hashOpened [Sha256] (reads : ShortReads) (content : Bytes) (file : LocalFile)
    (chunkBytes fuel : ℕ) : Option (Except UploadError FileDigest) :=
  (hashLoop reads chunkBytes fuel 0 content [] 0).map fun (hashed, sizeBytes) =>
    finishHash file hashed sizeBytes

/-- The chunks that up to `fuel` reads deliver, before the end of the file. -/
def ShortReads.chunks (reads : ShortReads) (chunkBytes : ℕ) : ℕ → ℕ → Bytes → List Bytes
  | 0, _, _ => []
  | fuel + 1, i, rest =>
      let chunk := reads.read chunkBytes i rest
      if chunk.length = 0 then []
      else chunk :: reads.chunks chunkBytes fuel (i + 1) (rest.drop chunk.length)

/-- A disk whose files have the content and are read this way. -/
def ShortReads.disk (reads : ShortReads) (content : Bytes) : Disk :=
  fun chunkBytes _ => .ok ((reads.chunks chunkBytes content.length 0 content).map .ok)

section Reads

variable (reads : ShortReads) {chunkBytes : ℕ}

theorem length_read (i : ℕ) (rest : Bytes) : (reads.read chunkBytes i rest).length =
    reads.count i (min chunkBytes rest.length) := by
  have hle := (reads.legal i (min chunkBytes rest.length)).1
  rw [ShortReads.read, List.length_take]
  omega

theorem read_append_drop (chunkBytes i : ℕ) (rest : Bytes) :
    reads.read chunkBytes i rest ++ rest.drop (reads.read chunkBytes i rest).length = rest := by
  rw [length_read, ShortReads.read, List.take_append_drop]

theorem length_read_eq_zero_iff (hpos : 0 < chunkBytes) (i : ℕ) (rest : Bytes) :
    (reads.read chunkBytes i rest).length = 0 ↔ rest = [] := by
  rw [length_read]
  constructor
  · intro hzero
    by_contra hne
    have hrest := List.length_pos_iff.mpr hne
    have hcount := (reads.legal i (min chunkBytes rest.length)).2 (by omega)
    omega
  · rintro rfl
    rw [List.length_nil, Nat.min_zero]
    exact (reads.legal i).zero

/-- The loop ends with the whole rest of the file hashed. -/
theorem hashLoop_eq (hpos : 0 < chunkBytes) (fuel i : ℕ) (rest hashed : Bytes) (sizeBytes : ℕ)
    (hfuel : rest.length < fuel) : hashLoop reads chunkBytes fuel i rest hashed sizeBytes =
      some (hashed ++ rest, sizeBytes + rest.length) := by
  induction fuel generalizing i rest hashed sizeBytes with
  | zero => omega
  | succ fuel ih =>
      rw [hashLoop]
      split
      · next hend =>
          rw [(length_read_eq_zero_iff reads hpos i rest).mp hend]
          simp
      · next hmore =>
          have hsplit := read_append_drop reads chunkBytes i rest
          have hlength := congrArg List.length hsplit
          rw [List.length_append] at hlength
          rw [ih _ _ _ _ (by omega), List.append_assoc, hsplit, Nat.add_assoc, hlength]

theorem chunks_spec (hpos : 0 < chunkBytes) (fuel i : ℕ) (rest : Bytes)
    (hfuel : rest.length ≤ fuel) :
    (∀ chunk ∈ reads.chunks chunkBytes fuel i rest,
      0 < chunk.length ∧ chunk.length ≤ chunkBytes) ∧
      (reads.chunks chunkBytes fuel i rest).flatten = rest := by
  induction fuel generalizing i rest with
  | zero =>
      rw [List.eq_nil_of_length_eq_zero (Nat.le_zero.mp hfuel), ShortReads.chunks]
      exact ⟨List.forall_mem_nil _, rfl⟩
  | succ fuel ih =>
      rw [ShortReads.chunks]
      split
      · next hend =>
          rw [(length_read_eq_zero_iff reads hpos i rest).mp hend]
          exact ⟨List.forall_mem_nil _, rfl⟩
      · next hmore =>
          have hsplit := read_append_drop reads chunkBytes i rest
          have hlength := congrArg List.length hsplit
          rw [List.length_append] at hlength
          obtain ⟨hchunks, hflatten⟩ := ih (i + 1)
            (rest.drop (reads.read chunkBytes i rest).length) (by omega)
          refine ⟨List.forall_mem_cons.mpr ⟨⟨by omega, ?_⟩, hchunks⟩, ?_⟩
          · have hle := (reads.legal i (min chunkBytes rest.length)).1
            rw [length_read]
            omega
          · rw [List.flatten_cons, hflatten, hsplit]

theorem disk_serves (content : Bytes) (path : PathBuf) :
    Serves (reads.disk content) path content := by
  intro chunkBytes hpos
  obtain ⟨hchunks, hflatten⟩ := chunks_spec reads hpos content.length 0 content le_rfl
  exact ⟨_, rfl, hchunks, hflatten⟩

end Reads

/-- Accepted options give every worker a buffer, within the budget of all of them. -/
theorem hashChunkBytes_bounds {options : UploadOptions}
    (h : validateOptions options = .ok ()) :
    1 ≤ hashChunkBytes options ∧ hashChunkBytes options ≤ 1024 * 1024 ∧
      options.hashWorkers * hashChunkBytes options ≤ options.inFlightBytes := by
  have hbudget : 0 < options.hashWorkers ∧ options.hashWorkers ≤ options.inFlightBytes := by
    unfold validateOptions at h
    split at h
    · cases h
    · split at h
      · cases h
      · split at h
        · cases h
        · omega
  have hshare : 1 ≤ options.inFlightBytes / options.hashWorkers :=
    (Nat.one_le_div_iff hbudget.1).mpr hbudget.2
  refine ⟨hashChunkBytes_pos options, Nat.min_le_left _ _, ?_⟩
  calc options.hashWorkers * hashChunkBytes options
      ≤ options.hashWorkers * (options.inFlightBytes / options.hashWorkers) := by
        refine Nat.mul_le_mul_left _ ?_
        rw [hashChunkBytes, Nat.max_eq_left hshare]
        exact Nat.min_le_right _ _
    _ ≤ options.inFlightBytes := Nat.mul_div_le _ _

section Hash

variable [Sha256]

theorem finishHash_of_eq {file : LocalFile} {content : Bytes}
    (hlen : file.metadata.len = content.length) (hsize : content.length ≤ i64Max) :
    finishHash file content content.length = .ok (servedDigest file content) := by
  rw [finishHash, if_neg (by omega), new_eq_forBytes hsize]
  rfl

theorem finishHash_of_ne {file : LocalFile} {hashed : Bytes} {sizeBytes : ℕ}
    (h : sizeBytes ≠ file.metadata.len) : ∃ e, finishHash file hashed sizeBytes = .error e :=
  ⟨_, if_pos h⟩

theorem hashFile_eq (disk : Disk) (file : LocalFile) (chunkBytes : ℕ) :
    hashFile disk file chunkBytes = (do
      let reads ← (disk chunkBytes file.absolutePath).mapError (.filesystem file.absolutePath)
      let (hashed, sizeBytes) ← hashReads file.absolutePath reads [] 0
      finishHash file hashed sizeBytes) :=
  rfl

theorem hashFile_eq_finishHash {disk : Disk} {file : LocalFile} {content : Bytes}
    {chunkBytes : ℕ} (hpos : 0 < chunkBytes) (hserves : Serves disk file.absolutePath content) :
    hashFile disk file chunkBytes = finishHash file content content.length := by
  obtain ⟨chunks, hreads, hchunks, rfl⟩ := hserves chunkBytes hpos
  have hloop := hashReads_served file.absolutePath chunks
    (fun chunk hmem => (hchunks chunk hmem).1) [] 0
  rw [List.nil_append, Nat.zero_add] at hloop
  rw [hashFile_eq, hreads]
  simp only [Except.mapError, Result.ok_bind, hloop]

/-- Hashing ends after at most one read more than the content has bytes, and its result does
not depend on how the reads cut the content. -/
theorem hash_file_chunk_independent :
    (∀ options, validateOptions options = .ok () →
      1 ≤ hashChunkBytes options ∧ hashChunkBytes options ≤ 1024 * 1024 ∧
        options.hashWorkers * hashChunkBytes options ≤ options.inFlightBytes) ∧
    ∀ (chunkBytes : ℕ), 1 ≤ chunkBytes → ∀ (content : Bytes), content.length ≤ i64Max →
      ∀ (reads : ShortReads) (file : LocalFile), ∃ result,
        (∀ fuel, content.length < fuel →
          hashOpened reads content file chunkBytes fuel = some result) ∧
        hashFile (reads.disk content) file chunkBytes = result ∧
        (file.metadata.len = content.length → result = .ok (servedDigest file content)) ∧
        (file.metadata.len ≠ content.length → ∃ e, result = .error e) := by
  refine ⟨fun options h => hashChunkBytes_bounds h, ?_⟩
  intro chunkBytes hpos content hsize reads file
  refine ⟨finishHash file content content.length, ?_, ?_, ?_, ?_⟩
  · intro fuel hfuel
    rw [hashOpened, hashLoop_eq reads hpos fuel 0 content [] 0 hfuel, Option.map_some,
      List.nil_append, Nat.zero_add]
  · exact hashFile_eq_finishHash hpos (disk_serves reads content file.absolutePath)
  · intro hlen
    exact finishHash_of_eq hlen hsize
  · intro hne
    exact finishHash_of_ne hne.symm

end Hash

namespace Sample

def oneByteReads : ShortReads where
  count _ n := min n 1
  legal _ n := by
    dsimp only
    omega

def twoByteFile : LocalFile where
  name := "a"
  relativePath := [.utf8 "a"]
  absolutePath := [.utf8 "", .utf8 "a"]
  metadata := ⟨0o644, 0, 0, 1, 1, 2⟩

end Sample

/-- The theorem at two bytes that are read one by one. -/
theorem hash_file_chunk_independent_sample :
    letI : Sha256 := Digest.Sample.sha256
    hashOpened Sample.oneByteReads [104, 105] Sample.twoByteFile 4 3 =
      some (.ok (servedDigest Sample.twoByteFile [104, 105])) := by
  let _ : Sha256 := Digest.Sample.sha256
  obtain ⟨result, hopened, -, hok, -⟩ := hash_file_chunk_independent.2 4 (by decide) [104, 105]
    (by decide) Sample.oneByteReads Sample.twoByteFile
  rw [hopened 3 (by decide), hok rfl]

end Upload

end RemoteFs
