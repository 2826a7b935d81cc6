import RemoteFs.Cas.BlobStore
import RemoteFs.Cas.Config
import RemoteFs.Cas.DownloadSpec
import RemoteFs.Cas.WriteStream

/-!
# Writing a blob through ByteStream

A blob too large for a batch is written by `bytestream_write_blob`: bytes in memory in
one request, a file in the stream its producer reads. Either way the resource name, with
its UUID, is made before the retry loop and shared by all attempts of the loop.

`streams_bounded_iff` compares the two senders. What an attempt sends is the beginning of
a stream that makes up the content, and the whole of it when the attempt succeeds or its
receiver keeps consuming; the requests of a file stay within the chunk size, the request of
bytes in memory only when the content does.
`resourceNames_nodup_iff` says when the names of the attempts differ: only when there is
no second attempt.
-/

namespace RemoteFs

namespace Cas

/-- What the disk, the network and the server do during one attempt of a write. The RPC
of bytes in memory ends with `outcome`, unless the time of the attempt runs out first. A
file gives `reads`, and the parties of its write act in the order of `schedule`. -/
structure WriteAttempt where
  outcome : Option WriteOutcome
  reads : Reads
  schedule : List FileWrite.Action

/-- An attempt that was made: its resource, what surrounded it, the requests that were sent, its
result. -/
structure Attempted where
  resourceName : String
  surroundings : WriteAttempt
  requests : List WriteRequest
  result : Except AttemptFailure Int64

/-- The result of a sender, or none in time, as the retry loop sees it. -/
def attemptResult : Option (Except Status Int64) → Except AttemptFailure Int64
  | none => .error .elapsed
  | some result => result.mapError .status

def bytesRequest (resourceName : String) (data : Bytes) : WriteRequest where
  resourceName := resourceName
  writeOffset := 0
  finishWrite := true
  data := data

def attemptBytes (resourceName : String) (digest : Digest) (data : Bytes)
    (attempt : WriteAttempt) : Attempted where
  resourceName := resourceName
  surroundings := attempt
  requests := [bytesRequest resourceName data]
  result := attemptResult (attempt.outcome.map (sendBytestreamBytesWrite resourceName digest))

def attemptFile (resourceName : String) (digest : Digest) (path : PathBuf)
    (attempt : WriteAttempt) : Attempted :=
  let source : FileSource := ⟨resourceName, path, attempt.reads⟩
  match Transition.run (FileWrite.step source) .start attempt.schedule with
  | none => ⟨resourceName, attempt, [], .error .elapsed⟩
  | some s =>
      ⟨resourceName, attempt, s.sent, attemptResult (FileWrite.returned source digest s)⟩

/-- The resource to write a digest to; `newV4 n` is the UUID of the `n`-th call. -/
def bytestreamWriteResourceName (newV4 : ℕ → String) (instanceName : String)
    (digest : Digest) (calls : ℕ) : String × ℕ :=
  (s!"{instanceName}/uploads/{newV4 calls}/blobs/{digest.hash}/{digest.sizeBytes}", calls + 1)

/-- A finished write: its result, its attempts in order, and the number of UUIDs made. -/
structure WriteRun where
  result : Except CasError Unit
  attempts : List Attempted
  calls : ℕ

def retryWrite (config : CasConfig) (op : ℕ → Attempted) (operation : String) (calls : ℕ) :
    WriteRun where
  result := (withContext (retryRpc config .byteStreamWrite fun n => (op n).result)
    operation).map fun _ => ()
  attempts := (Retry.made AttemptFailure.retryable config.maxAttempts
    (fun n => (op n).result) 1).map op
  calls := calls

section Write

variable (config : CasConfig) (newV4 : ℕ → String) (attempts : ℕ → WriteAttempt)

def bytestreamWriteFile (digest : Digest) (path : PathBuf) (calls : ℕ) : WriteRun :=
  let (resourceName, calls) :=
    bytestreamWriteResourceName newV4 config.instanceName digest calls
  retryWrite config (fun n => attemptFile resourceName digest path (attempts n))
    s!"write file {path.display} to ByteStream resource {resourceName}" calls

def bytestreamWriteBlob (blob : Blob) (calls : ℕ) : WriteRun :=
  match blob.contents with
  | .filePath path => bytestreamWriteFile config newV4 attempts blob.digest path calls
  | .bytes data =>
      let (resourceName, calls) :=
        bytestreamWriteResourceName newV4 config.instanceName blob.digest calls
      retryWrite config (fun n => attemptBytes resourceName blob.digest data (attempts n))
        s!"write blob {blob.digest.display} to ByteStream resource {resourceName}" calls

def attemptBlob (resourceName : String) (blob : Blob) (attempt : WriteAttempt) : Attempted :=
  match blob.contents with
  | .filePath path => attemptFile resourceName blob.digest path attempt
  | .bytes data => attemptBytes resourceName blob.digest data attempt

theorem attemptBlob_resourceName (resourceName : String) (blob : Blob)
    (attempt : WriteAttempt) :
    (attemptBlob resourceName blob attempt).resourceName = resourceName := by
  unfold attemptBlob
  cases blob.contents with
  | bytes data => rfl
  | filePath path =>
      dsimp only [attemptFile]
      split
      · rfl
      · rfl

/-- Both senders retry the attempts on the one resource that was named first. -/
theorem bytestreamWriteBlob_attempts (blob : Blob) (calls : ℕ) :
    (bytestreamWriteBlob config newV4 attempts blob calls).attempts =
      (Retry.made AttemptFailure.retryable config.maxAttempts
        (fun n => (attemptBlob (bytestreamWriteResourceName newV4 config.instanceName
          blob.digest calls).1 blob (attempts n)).result) 1).map
        fun n => attemptBlob (bytestreamWriteResourceName newV4 config.instanceName
          blob.digest calls).1 blob (attempts n) := by
  unfold bytestreamWriteBlob attemptBlob
  cases blob.contents with
  | bytes data => rfl
  | filePath path => rfl

theorem bytestreamWriteBlob_of_ok (blob : Blob) (calls : ℕ)
    (h : ∀ resourceName, ∃ written,
      (attemptBlob resourceName blob (attempts 1)).result = .ok written) :
    (bytestreamWriteBlob config newV4 attempts blob calls).result = .ok () := by
  have hretry : ∀ (op : ℕ → Attempted) (operation : String) (calls : ℕ),
      (∃ written, (op 1).result = .ok written) →
        (retryWrite config op operation calls).result = .ok () := by
    rintro op operation calls ⟨written, hop⟩
    dsimp only [retryWrite]
    rw [retryRpc_of_ok hop]
    rfl
  unfold bytestreamWriteBlob
  unfold attemptBlob at h
  cases hcontents : blob.contents with
  | bytes data =>
      rw [hcontents] at h
      exact hretry _ _ _ (h _)
  | filePath path =>
      rw [hcontents] at h
      exact hretry _ _ _ (h _)

theorem resourceNames_eq_replicate (blob : Blob) (calls : ℕ) :
    (bytestreamWriteBlob config newV4 attempts blob calls).attempts.map
        Attempted.resourceName =
      List.replicate (bytestreamWriteBlob config newV4 attempts blob calls).attempts.length
        (bytestreamWriteResourceName newV4 config.instanceName blob.digest calls).1 := by
  rw [List.eq_replicate_iff, List.length_map, bytestreamWriteBlob_attempts, List.map_map]
  refine ⟨rfl, ?_⟩
  intro resourceName hname
  obtain ⟨n, -, rfl⟩ := List.mem_map.mp hname
  exact attemptBlob_resourceName _ blob (attempts n)

/-- There is a second attempt when the first failed in a way that is retried and the limit
allows another. -/
theorem two_le_length_attempts_iff (blob : Blob) (calls : ℕ) :
    2 ≤ (bytestreamWriteBlob config newV4 attempts blob calls).attempts.length ↔
      1 < config.maxAttempts ∧ Retry.Transient AttemptFailure.retryable
        (attemptBlob (bytestreamWriteResourceName newV4 config.instanceName blob.digest
          calls).1 blob (attempts 1)).result := by
  rw [bytestreamWriteBlob_attempts, List.length_map]
  exact Retry.two_le_length_made_iff 1

/-- The names of the attempts of a write differ exactly when there is no second attempt:
the limit allows one, or the first did not fail in a way that is retried. -/
theorem resourceNames_nodup_iff (blob : Blob) (calls : ℕ) :
    ((bytestreamWriteBlob config newV4 attempts blob calls).attempts.map
        Attempted.resourceName).Nodup ↔
      config.maxAttempts ≤ 1 ∨
        ¬ Retry.Transient AttemptFailure.retryable
          (attemptBlob (bytestreamWriteResourceName newV4 config.instanceName blob.digest
            calls).1 blob (attempts 1)).result := by
  rw [resourceNames_eq_replicate, List.nodup_replicate, ← not_lt, ← Nat.succ_le_iff,
    two_le_length_attempts_iff, not_and_or, not_lt]

/-- The attempt finds a content behind a blob. A file gives it in reads of any size up
to the chunk size. -/
def WriteAttempt.Finds (content : Bytes) (attempt : WriteAttempt) : BlobContents → Prop
  | .bytes data => data = content
  | .filePath _ => ∃ chunks : List Bytes, attempt.reads = .ok (chunks.map .ok) ∧
      chunks.flatten = content ∧ ∀ chunk ∈ chunks,
        1 ≤ chunk.length ∧ chunk.length ≤ bytestreamUploadChunkBytes

/-- The requests make up a content, in order, and the last one finishes the write. -/
structure Reassembles (content : Bytes) (requests : List WriteRequest) : Prop where
  writeOffset_eq : ∀ (before : List WriteRequest) (request : WriteRequest)
      (after : List WriteRequest), requests = before ++ request :: after →
    request.writeOffset = (before.map fun earlier => earlier.data.length).sum
  data_eq : requests.flatMap WriteRequest.data = content
  finish_last : ∃ (before : List WriteRequest) (last : WriteRequest),
    requests = before ++ [last] ∧ last.finishWrite = true ∧
    ∀ request ∈ before, request.finishWrite = false

/-- The receiver of an attempt keeps consuming. The one request of bytes in memory is queued
before the RPC starts; a file is exchanged until neither party can act. -/
def Attempted.Uninterrupted (attempt : Attempted) : BlobContents → Prop
  | .bytes _ => True
  | .filePath path =>
      (∀ action ∈ attempt.surroundings.schedule, action.Exchange) ∧
        ∃ s, Transition.run
            (FileWrite.step ⟨attempt.resourceName, path, attempt.surroundings.reads⟩) .start
            attempt.surroundings.schedule = some s ∧
          ∀ action : FileWrite.Action, action.Exchange →
            FileWrite.step ⟨attempt.resourceName, path, attempt.surroundings.reads⟩ s action =
              none

/-- The requests of an attempt carry at most a chunk each and are the beginning of a stream that
makes up the content, the whole of it when the attempt succeeds or its receiver keeps
consuming. -/
structure StreamsWithinChunks (contents : BlobContents) (content : Bytes)
    (attempt : Attempted) : Prop where
  bounded : ∀ request ∈ attempt.requests, request.data.length ≤ bytestreamUploadChunkBytes
  begun : ∃ rest, Reassembles content (attempt.requests ++ rest)
  finished : (∃ committed, attempt.result = .ok committed) ∨ attempt.Uninterrupted contents →
    Reassembles content attempt.requests

theorem WellFormedStream.reassembles {resourceName : String} {content : Bytes}
    {requests : List WriteRequest} (h : WellFormedStream resourceName content requests) :
    Reassembles content requests := by
  obtain ⟨before, last, hlast, hfinish, -, hbefore⟩ := h.finish_last
  exact ⟨h.writeOffset_eq, h.data_eq, before, last, hlast, hfinish, hbefore⟩

theorem FileWrite.done_of_returned {source : FileSource} {digest : Digest} {s : FileWrite}
    {committed : Int64} (h : attemptResult (returned source digest s) = .ok committed) :
    s.producer = .done (.ok ()) := by
  unfold returned at h
  split at h
  · next outcome result hresponse hproducer =>
      cases result with
      | ok => exact hproducer
      | error status => cases h
  · cases h

theorem attemptFile_streamsWithinChunks (resourceName : String) (digest : Digest)
    (path : PathBuf) (content : Bytes) (attempt : WriteAttempt)
    (h : attempt.Finds content (.filePath path)) :
    StreamsWithinChunks (.filePath path) content
      (attemptFile resourceName digest path attempt) := by
  obtain ⟨chunks, hreads, rfl, hchunks⟩ := h
  obtain ⟨hstream, hresult⟩ := FileWrite.wellFormed_stream
    ⟨resourceName, path, attempt.reads⟩ chunks hreads hchunks
  dsimp only [attemptFile]
  split
  · next hrun =>
      refine ⟨by simp, ⟨_, hstream.reassembles⟩, ?_⟩
      rintro (⟨committed, hok⟩ | ⟨-, s, hsome, -⟩)
      · cases hok
      · rw [hrun] at hsome
        cases hsome
  · next s hrun =>
      have hsending := FileWrite.sending_of_run _ hrun
      obtain ⟨rest, hrest⟩ := hsending.sent_isPrefix
      refine ⟨fun request hrequest =>
        hstream.data_length_le request (hsending.sent_isPrefix.mem hrequest),
        ⟨rest, hrest ▸ hstream.reassembles⟩, ?_⟩
      rintro (⟨committed, hok⟩ | ⟨hall, s', hsome, hstuck⟩)
      · exact hsending.sent_of_done (FileWrite.done_of_returned hok) ▸ hstream.reassembles
      · rw [hrun, Option.some.injEq] at hsome
        subst hsome
        obtain ⟨-, -, hsent⟩ :=
          FileWrite.delivered_of_stuck _ _ s hresult hall hrun hstuck
        exact hsent ▸ hstream.reassembles

theorem reassembles_bytesRequest (resourceName : String) (data : Bytes) :
    Reassembles data [bytesRequest resourceName data] where
  writeOffset_eq := by
    intro before request after hsplit
    cases before with
    | nil =>
        cases hsplit
        rfl
    | cons first before => simp at hsplit
  data_eq := by simp [bytesRequest]
  finish_last := ⟨[], _, rfl, rfl, by simp⟩

theorem bytes_streamsWithinChunks_iff (blob : Blob) (calls : ℕ) (data : Bytes)
    (hcontents : blob.contents = .bytes data) :
    (∀ attempt ∈ (bytestreamWriteBlob config newV4 attempts blob calls).attempts,
        StreamsWithinChunks (.bytes data) data attempt) ↔
      data.length ≤ bytestreamUploadChunkBytes := by
  have hstream : ∀ n, StreamsWithinChunks (.bytes data) data (attemptBlob
      (bytestreamWriteResourceName newV4 config.instanceName blob.digest calls).1 blob
      (attempts n)) ↔ data.length ≤ bytestreamUploadChunkBytes := by
    intro n
    rw [attemptBlob, hcontents]
    have hwhole := reassembles_bytesRequest
      (bytestreamWriteResourceName newV4 config.instanceName blob.digest calls).1 data
    refine ⟨fun h => h.bounded _ (List.mem_singleton_self _), fun hle => ⟨?_, ⟨[], ?_⟩, ?_⟩⟩
    · exact List.forall_mem_singleton.mpr hle
    · exact hwhole
    · exact fun _ => hwhole
  rw [bytestreamWriteBlob_attempts, List.forall_mem_map]
  simp only [hstream]
  constructor
  · exact fun h => h 1 (Retry.mem_made_self 1)
  · intro h n _
    exact h

/-- The streams of a blob stay within the chunk size, and make up its content, exactly when
the blob is a file or its content fits one chunk. -/
theorem streams_bounded_iff (blob : Blob) (calls : ℕ) (content : Bytes)
    (hcontent : ∀ n, (attempts n).Finds content blob.contents) :
    (∀ attempt ∈ (bytestreamWriteBlob config newV4 attempts blob calls).attempts,
        StreamsWithinChunks blob.contents content attempt) ↔
      (∃ path, blob.contents = .filePath path) ∨
        content.length ≤ bytestreamUploadChunkBytes := by
  cases hcontents : blob.contents with
  | filePath path =>
      refine iff_of_true ?_ (.inl ⟨path, rfl⟩)
      rw [bytestreamWriteBlob_attempts, List.forall_mem_map]
      intro n _
      rw [attemptBlob, hcontents]
      exact attemptFile_streamsWithinChunks _ _ path content (attempts n)
        (hcontents ▸ hcontent n)
  | bytes data =>
      have hdata : data = content := by
        have hfinds := hcontent 1
        rw [hcontents] at hfinds
        exact hfinds
      subst hdata
      simp only [reduceCtorEq, exists_false, false_or]
      exact bytes_streamsWithinChunks_iff config newV4 attempts blob calls data hcontents

end Write

namespace Sample

def newV4 (n : ℕ) : String :=
  "44444444-4444-4444-8444-44444444444" ++ toString n

theorem newV4_injective : Function.Injective newV4 := by
  intro m n h
  have hdigits := congrArg (fun text : String => Nat.ofDigitChars 10 text.toList 0)
    ((String.append_right_inj _).mp h)
  simpa only [Nat.toString_eq_repr, Nat.toList_repr, Nat.ofDigitChars_ten_toDigits]
    using hdigits

/-- A server that is unavailable at first, and then answers. -/
def recovering (n : ℕ) : WriteAttempt where
  outcome := some (if n = 1 then .error ⟨.unavailable, "try again"⟩ else .ok 2)
  reads := .ok [.ok [104], .ok [105]]
  schedule := FileWrite.Sample.turns ++ [.terminate (.ok 2)]

def greetingBytes : Blob where
  digest := digest
  contents := .bytes [104, 105]

def greetingFile : Blob where
  digest := digest
  contents := .filePath [.utf8 "", .utf8 "greeting"]

/-- One byte more than the default budget, as the encoding of a directory would be. -/
def largeBytes : Bytes :=
  List.replicate 3584001 0

theorem length_largeBytes : largeBytes.length = 3584001 :=
  List.length_replicate

def largeBlob : Blob :=
  @Blob.fromBytes sha256 largeBytes

end Sample

/-- A write that is retried uses the name of its first attempt again. -/
theorem retried_write_reuses_name :
    Function.Injective Sample.newV4 ∧
      Sample.config.batchUpdateBudgetBytes < Sample.greetingBytes.digest.sizeBytes ∧
      ¬ ((bytestreamWriteBlob Sample.config Sample.newV4 Sample.recovering
        Sample.greetingBytes 0).attempts.map Attempted.resourceName).Nodup := by
  refine ⟨Sample.newV4_injective, by decide, ?_⟩
  have hsecond := (two_le_length_attempts_iff Sample.config Sample.newV4 Sample.recovering
    Sample.greetingBytes 0).mpr ⟨by decide, _, rfl, by decide⟩
  rw [resourceNames_eq_replicate, List.nodup_replicate]
  omega

/-- A file that is read one byte at a time, written with success. -/
theorem streams_bounded_iff_greetingFile :
    ∃ attempt ∈ (bytestreamWriteBlob Sample.config Sample.newV4 Sample.recovering
        Sample.greetingFile 0).attempts,
      attempt.result = .ok 2 ∧ attempt.requests.length = 3 ∧
      Reassembles [104, 105] attempt.requests ∧
      ∀ request ∈ attempt.requests, request.data.length ≤ bytestreamUploadChunkBytes := by
  have hfinds : ∀ n, (Sample.recovering n).Finds [104, 105] Sample.greetingFile.contents :=
    fun _ => ⟨[[104], [105]], rfl, rfl, by decide⟩
  have hstreams := (streams_bounded_iff Sample.config Sample.newV4 Sample.recovering
    Sample.greetingFile 0 [104, 105] hfinds).mpr (.inl ⟨_, rfl⟩)
  have hexists : ∃ attempt ∈ (bytestreamWriteBlob Sample.config Sample.newV4 Sample.recovering
      Sample.greetingFile 0).attempts, attempt.result = .ok 2 ∧ attempt.requests.length = 3 := by
    rw [bytestreamWriteBlob_attempts]
    have hfirst : (attemptBlob (bytestreamWriteResourceName Sample.newV4
        Sample.config.instanceName Sample.greetingFile.digest 0).1 Sample.greetingFile
        (Sample.recovering 1)).result = .ok 2 := rfl
    exact ⟨_, List.mem_map_of_mem (Retry.mem_made_self 1), hfirst, rfl⟩
  obtain ⟨attempt, hmem, hresult, hlength⟩ := hexists
  have hstream := hstreams attempt hmem
  exact ⟨attempt, hmem, hresult, hlength, hstream.finished (.inl ⟨2, hresult⟩), hstream.bounded⟩

/-- Bytes in memory beyond the default budget go out in one request of that size. -/
theorem large_bytes_exceed_chunk :
    (CasConfig.defaults "grpc://localhost:9092" "main").batchUpdateBudgetBytes <
        Sample.largeBytes.length ∧
      Sample.largeBlob.contents = .bytes Sample.largeBytes ∧
      ¬ ∀ attempt ∈ (bytestreamWriteBlob
          (CasConfig.defaults "grpc://localhost:9092" "main") Sample.newV4
          Sample.recovering Sample.largeBlob 0).attempts,
        StreamsWithinChunks (.bytes Sample.largeBytes) Sample.largeBytes attempt := by
  rw [bytes_streamsWithinChunks_iff _ _ _ Sample.largeBlob 0 Sample.largeBytes rfl,
    Sample.length_largeBytes]
  exact ⟨by decide, rfl, by decide⟩

end Cas

end RemoteFs
