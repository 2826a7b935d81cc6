import RemoteFs.Library.Keyed
import RemoteFs.Upload.Encode

/-!
# What the hash workers return

`Serves disk path content` says that a file holds `content` while it is
read: whatever the size of the buffer, the reads succeed and add up to the
content. A file that is served hashes to the digest of its content, and the
list the workers return does not depend on the order in which they complete.
-/

namespace RemoteFs

namespace Upload

open SortBy

/-- Reading the path returns the content, in chunks the buffer can hold. -/
def Serves (disk : Disk) (path : PathBuf) (content : Bytes) : Prop :=
  ∀ chunkBytes, 0 < chunkBytes → ∃ chunks : List Bytes,
    disk chunkBytes path = .ok (chunks.map .ok) ∧
      (∀ chunk ∈ chunks, 0 < chunk.length ∧ chunk.length ≤ chunkBytes) ∧
        chunks.flatten = content

theorem hashReads_served (path : PathBuf) (chunks : List Bytes)
    (h : ∀ chunk ∈ chunks, 0 < chunk.length) (hashed : Bytes) (sizeBytes : ℕ) :
    hashReads path (chunks.map .ok) hashed sizeBytes =
      .ok (hashed ++ chunks.flatten, sizeBytes + chunks.flatten.length) := by
  induction chunks generalizing hashed sizeBytes with
  | nil => simp [hashReads]
  | cons chunk chunks ih =>
      obtain ⟨hchunk, hchunks⟩ := List.forall_mem_cons.mp h
      rw [List.map_cons, hashReads, if_neg (by omega), ih hchunks]
      simp [Nat.add_assoc]

theorem hashChunkBytes_pos (options : UploadOptions) : 0 < hashChunkBytes options := by
  unfold hashChunkBytes hashChunkBytesLimit
  omega

theorem getElem?_foldl_set {β : Type} (value : ℕ → Option β) (order : List ℕ)
    (slots : List (Option β)) (i : ℕ) (hi : i < slots.length) :
    (order.foldl (fun slots i => slots.set i (value i)) slots)[i]? =
      if i ∈ order then some (value i) else slots[i]? := by
  induction order generalizing slots with
  | nil => simp
  | cons j order ih =>
      rw [List.foldl_cons, ih (slots.set j (value j)) (by simpa using hi)]
      by_cases horder : i ∈ order
      · simp [horder]
      · by_cases hij : i = j
        · subst hij
          simp [horder, hi]
        · have hji : j ≠ i := fun h => hij h.symm
          simp [horder, hij, List.getElem?_set_ne hji]

theorem length_foldl_set {β : Type} (value : ℕ → Option β) (order : List ℕ)
    (slots : List (Option β)) :
    (order.foldl (fun slots i => slots.set i (value i)) slots).length = slots.length := by
  induction order generalizing slots with
  | nil => rfl
  | cons j order ih => rw [List.foldl_cons, ih, List.length_set]

/-- When every worker completes, in whatever order, each slot holds the result
of its own task. -/
theorem HashWorkers.slots_eq_map (workers : HashWorkers) {β : Type} (hash : LocalFile → β)
    (files : List LocalFile) (h : workers.completion.Perm (List.range files.length)) :
    workers.slots hash files = files.map fun file => some (hash file) := by
  apply List.ext_getElem?
  intro i
  unfold HashWorkers.slots
  by_cases hi : i < files.length
  · rw [getElem?_foldl_set (fun i => files[i]?.map hash) _ _ _ (by simpa using hi),
      if_pos (h.mem_iff.mpr (List.mem_range.mpr hi))]
    simp [hi]
  · have hlength := length_foldl_set (fun i => files[i]?.map hash) workers.completion
      (files.map fun _ => none)
    rw [List.length_map] at hlength
    rw [List.getElem?_eq_none (by omega), List.getElem?_eq_none (by simpa using hi)]

theorem HashWorkers.slot_of_mem (workers : HashWorkers) {β : Type} (hash : LocalFile → β)
    (files : List LocalFile) (task : LocalFile × Option β)
    (h : task ∈ files.zip (workers.slots hash files)) :
    task.1 ∈ files ∧ (task.2 = none ∨ task.2 = some (hash task.1)) := by
  obtain ⟨i, hi, rfl⟩ := List.getElem_of_mem h
  rw [List.length_zip, lt_min_iff] at hi
  rw [List.getElem_zip]
  refine ⟨List.getElem_mem hi.1, ?_⟩
  have hslot := getElem?_foldl_set (fun i => files[i]?.map hash) workers.completion
    (files.map fun _ => none) i (by simpa using hi.1)
  have hget : (workers.slots hash files)[i]? = some ((workers.slots hash files)[i]) :=
    List.getElem?_eq_getElem hi.2
  rw [← HashWorkers.slots, hget] at hslot
  split at hslot
  · right
    simpa [hi.1] using hslot
  · left
    simpa [hi.1] using hslot

variable [Sha256]

def servedDigest (file : LocalFile) (content : Bytes) : FileDigest where
  relativePath := file.relativePath
  absolutePath := file.absolutePath
  digest := Digest.forBytes content
  sizeBytes := content.length

theorem new_eq_forBytes {content : Bytes} (hsize : content.length ≤ i64Max) :
    Digest.new (hexEncode (Sha256.digest content).toList) (Int64.ofNat content.length) =
      .ok (Digest.forBytes content) := by
  have hwire := (Digest.forBytes content).fromReapi_toReapi
  simp only [Digest.fromReapi, Digest.toReapi, Digest.forBytes_sizeBytes content hsize] at hwire
  exact hwire

theorem hashFile_served (disk : Disk) (file : LocalFile) (content : Bytes) (chunkBytes : ℕ)
    (hchunk : 0 < chunkBytes) (hserves : Serves disk file.absolutePath content)
    (hlen : file.metadata.len = content.length) (hsize : content.length ≤ i64Max) :
    hashFile disk file chunkBytes = .ok (servedDigest file content) := by
  obtain ⟨chunks, hreads, hchunks, rfl⟩ := hserves chunkBytes hchunk
  have hloop := hashReads_served file.absolutePath chunks
    (fun chunk hmem => (hchunks chunk hmem).1) [] 0
  rw [List.nil_append, Nat.zero_add] at hloop
  have hnew := new_eq_forBytes hsize
  simp only [hashFile, hreads, hloop, Except.mapError, Result.ok_bind, hlen, ne_eq,
    not_true_eq_false, if_false, hnew]
  rfl

theorem hashFile_of_mem_hashFiles (disk : Disk) (workers : HashWorkers)
    (files : List LocalFile) (options : UploadOptions) (digests : List FileDigest)
    (h : hashFiles disk workers files options = .ok digests) (digest : FileDigest)
    (hdigest : digest ∈ digests) :
    ∃ file ∈ files, hashFile disk file (hashChunkBytes options) = .ok digest := by
  rw [hashFiles, Result.check_bind_eq_ok_iff, Result.bind_eq_ok_iff] at h
  obtain ⟨-, awaited, hawait, hsorted⟩ := h
  cases hsorted
  rw [mem_sortBy] at hdigest
  have hflip := ((Result.mapM_eq_ok_iff _ _ _).mp hawait).flip
  obtain ⟨task, htask, hresult⟩ := Result.exists_of_forall₂_of_mem hflip hdigest
  obtain ⟨hfile, hslot⟩ := workers.slot_of_mem _ files task htask
  rcases hslot with hslot | hslot
  · rw [hslot, HashWorkers.await] at hresult
    cases hresult
  · rw [hslot, HashWorkers.await] at hresult
    exact ⟨task.1, hfile, (withContext_eq_ok_iff _ _ _).mp hresult⟩

/-- A file that is served hashes to the digest of its content, if it hashes. -/
theorem hashFile_digest (disk : Disk) (file : LocalFile) (content : Bytes) (chunkBytes : ℕ)
    (hchunk : 0 < chunkBytes) (hserves : Serves disk file.absolutePath content)
    (digest : FileDigest) (h : hashFile disk file chunkBytes = .ok digest) :
    digest.absolutePath = file.absolutePath ∧ digest.digest = Digest.forBytes content := by
  obtain ⟨chunks, hreads, hchunks, rfl⟩ := hserves chunkBytes hchunk
  have hloop := hashReads_served file.absolutePath chunks
    (fun chunk hmem => (hchunks chunk hmem).1) [] 0
  rw [List.nil_append, Nat.zero_add] at hloop
  simp only [hashFile, hreads, hloop, Except.mapError, Result.ok_bind] at h
  split at h
  · cases h
  · rw [Result.bind_eq_ok_iff] at h
    obtain ⟨result, hnew, heq⟩ := h
    cases heq
    obtain ⟨hhash, hsize⟩ := Digest.new_ofNat_eq_ok _ _ _
      ((Result.mapError_eq_ok_iff _ _ _).mp hnew)
    exact ⟨rfl, Digest.ext hhash hsize⟩

/-- The workers return the digests of the files, sorted by path. -/
theorem hashFiles_eq_ok (disk : Disk) (workers : HashWorkers) (files : List LocalFile)
    (options : UploadOptions) (hoptions : validateOptions options = .ok ())
    (hworkers : workers.completion.Perm (List.range files.length)) (digests : List FileDigest)
    (hdigests : List.Forall₂ (fun file digest =>
      hashFile disk file (hashChunkBytes options) = .ok digest) files digests) :
    hashFiles disk workers files options =
      .ok (sortBy (fun digest => byteKey digest.relativePath.asBytes) digests) := by
  have hslots := workers.slots_eq_map (fun file => hashFile disk file (hashChunkBytes options))
    files hworkers
  have hawait : (files.zip (files.map fun file =>
      some (hashFile disk file (hashChunkBytes options)))).mapM
      (fun task => workers.await task.1 task.2) = .ok digests := by
    rw [← List.map_prod_left_eq_zip, Result.mapM_eq_ok_iff, List.forall₂_map_left_iff]
    refine hdigests.imp ?_
    intro file digest hdigest
    simp [HashWorkers.await, hdigest]
  simp only [hashFiles, hoptions, Result.ok_bind, hslots, hawait]

end Upload

end RemoteFs
