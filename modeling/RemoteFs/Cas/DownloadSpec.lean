import RemoteFs.Cas.Download

/-!
# What a download returns

Whatever the server does, a download that succeeds has delivered the blob its digest
names. On the stream this rests on `Streamed.Consistent`: the destination, the hasher
and the counter stay in step over every chunk.

A server that serves one content on both routes gets the same verdict on both: the
content is accepted exactly when the digest names it.
-/

namespace RemoteFs

namespace Cas

theorem retryRpc_of_transient {α : Type} {config : CasConfig} {operation : CasOperation}
    {op : ℕ → Except AttemptFailure α} {a : α} {k : ℕ} (hk : k < config.maxAttempts)
    (hfail : ∀ i < k, Retry.Transient AttemptFailure.retryable (op (1 + i)))
    (h : op (1 + k) = .ok a) : retryRpc config operation op = .ok a := by
  rw [retryRpc, Result.mapError_eq_ok_iff, Retry.loop_add k (by omega) hfail]
  exact Retry.loop_of_ok h

theorem retryRpc_of_ok {α : Type} {config : CasConfig} {operation : CasOperation}
    {op : ℕ → Except AttemptFailure α} {a : α} (h : op 1 = .ok a) :
    retryRpc config operation op = .ok a := by
  rw [retryRpc, Result.mapError_eq_ok_iff]
  exact Retry.loop_of_ok h

theorem digestSizeUsize_eq (digest : Digest) :
    digestSizeUsize digest = .ok digest.sizeBytes :=
  if_pos (digest.size_le.trans (by decide))

namespace Streamed

/-- The destination, the hasher and the counter agree. -/
structure Consistent (s : Streamed) : Prop where
  hasher : s.hasher = s.destination
  written : s.written = s.destination.length

theorem start_consistent : Streamed.start.Consistent :=
  ⟨rfl, rfl⟩

end Streamed

/-- A stream that is copied to its end leaves a consistent download. -/
theorem copyChunks_consistent {config : CasConfig} {digest : Digest} {resourceName : String}
    {sink : Sink} (events : List ReadEvent) (s s' : Streamed) (hs : s.Consistent)
    (h : copyChunks config digest resourceName sink events s = (.ok (), s')) :
    s'.Consistent := by
  induction events generalizing s with
  | nil =>
      cases h
      exact hs
  | cons event events ih =>
      cases event with
      | idle => cases h
      | failed status => cases h
      | chunk data =>
          rw [copyChunks, Sink.writeAll] at h
          cases hsink : sink s.destination data.val with
          | some failure =>
              rw [hsink] at h
              cases h
          | none =>
              rw [hsink] at h
              dsimp only at h
              split at h
              · refine ih _ ⟨?_, ?_⟩ h
                · rw [hs.hasher]
                · rw [hs.written, List.length_append]
              · cases h

theorem copyChunks_memory (config : CasConfig) (digest : Digest) (resourceName : String)
    (chunks : List Buffer) (s : Streamed)
    (hsize : s.written + (chunks.map Subtype.val).flatten.length ≤ u64Max) :
    copyChunks config digest resourceName .memory (chunks.map .chunk) s =
      (.ok (),
        { destination := s.destination ++ (chunks.map Subtype.val).flatten
          hasher := s.hasher ++ (chunks.map Subtype.val).flatten
          written := s.written + (chunks.map Subtype.val).flatten.length }) := by
  induction chunks generalizing s with
  | nil => simp [copyChunks]
  | cons chunk chunks ih =>
      rw [List.map_cons, List.flatten_cons, List.length_append] at hsize
      rw [List.map_cons, copyChunks, Sink.writeAll, Sink.memory]
      dsimp only
      rw [if_pos (by omega)]
      refine (ih _ ?_).trans ?_
      · dsimp only
        omega
      · simp only [List.map_cons, List.flatten_cons, List.append_assoc, List.length_append,
          Nat.add_assoc]

section Verdict

variable [Sha256]

/-- A consistent download passes exactly when the digest names what was written. -/
theorem verifyStreamed_eq_ok_iff (digest : Digest) {s : Streamed} (h : s.Consistent) :
    verifyStreamed digest s = .ok () ↔ digest.Names s.destination := by
  have hle : digest.Names s.destination → s.written ≤ i64Max := by
    intro hnames
    rw [h.written, hnames.2]
    exact digest.size_le
  unfold verifyStreamed
  split
  · next hsize =>
      have hiff : (⟨hexEncode (Sha256.digest s.hasher).toList, s.written, hexEncode_valid _,
          hsize⟩ : Digest) = digest ↔ digest.Names s.destination := by
        rw [Digest.eq_iff]
        dsimp only
        rw [h.hasher, h.written]
        exact Iff.rfl
      dsimp only
      rw [← hiff]
      split
      · next hne =>
          refine ⟨?_, fun heq => absurd heq hne⟩
          intro herror
          cases herror
      · next heq => exact ⟨fun _ => not_not.mp heq, fun _ => rfl⟩
  · next hsize =>
      refine ⟨?_, fun hnames => absurd (hle hnames) hsize⟩
      intro herror
      cases herror

theorem verifyDownload_eq_ok_iff (digest : Digest) (buffer : Buffer) :
    verifyDownload digest buffer.val = .ok () ↔ digest.Names buffer.val := by
  rw [verifyDownload, Result.mapError_eq_ok_iff, Digest.verifyBytes_eq_ok_iff,
    Digest.forBytes_eq_iff_names digest buffer.val buffer.property]

/-- What a batch read returns is the data of a first response that did not fail, and
the digest names it. -/
theorem batchReadBlob_eq_ok_iff (config : CasConfig) (server : Server) (digest : Digest)
    (buffer : Buffer) :
    batchReadBlob config server digest = .ok buffer ↔
      ∃ response rest, retryRpc config .batchReadBlobs
          (server.batchReadBlobs (batchReadRequest config digest)) = .ok (response :: rest) ∧
        (response.status.filter fun status => status.code ≠ 0) = none ∧
        response.data = buffer ∧ digest.Names buffer.val := by
  simp only [batchReadBlob, Result.bind_eq_ok_iff, withContext_eq_ok_iff]
  constructor
  · rintro ⟨responses, hrpc, h⟩
    cases responses with
    | nil => cases h
    | cons response rest =>
        dsimp only [List.head?_cons] at h
        split at h
        · cases h
        · next hstatus =>
            obtain ⟨hverify, hdata⟩ := (Result.check_bind_eq_ok_iff _ _ _).mp h
            rw [withContext_eq_ok_iff, verifyDownload_eq_ok_iff] at hverify
            cases hdata
            exact ⟨response, rest, hrpc, hstatus, rfl, hverify⟩
  · rintro ⟨response, rest, hrpc, hstatus, rfl, hnames⟩
    refine ⟨response :: rest, hrpc, ?_⟩
    dsimp only [List.head?_cons]
    rw [hstatus, (verifyDownload_eq_ok_iff digest response.data).mpr hnames]
    rfl

/-- What a stream has written when it succeeds is the blob. -/
theorem names_of_bytestreamReadInto {config : CasConfig} {server : Server} {digest : Digest}
    {sink : Sink} {written : Bytes}
    (h : bytestreamReadInto config server digest sink = (.ok (), written)) :
    digest.Names written := by
  unfold bytestreamReadInto at h
  dsimp only at h
  split at h
  · cases h
  · split at h
    · cases h
    · next s hcopy =>
        have hs := copyChunks_consistent _ _ _ Streamed.start_consistent hcopy
        obtain ⟨hverify, rfl⟩ := Prod.mk.inj h
        exact (verifyStreamed_eq_ok_iff digest hs).mp hverify

theorem names_of_streamBlob {config : CasConfig} {server : Server} {digest : Digest}
    {sink : Sink} {written : Bytes}
    (h : streamBlob config server digest sink = (.ok (), written)) :
    digest.Names written := by
  rw [streamBlob, digestSizeUsize_eq] at h
  dsimp only at h
  split at h
  · split at h
    · cases h
    · next bytes hbatch =>
        rw [withContext_eq_ok_iff, batchReadBlob_eq_ok_iff] at hbatch
        obtain ⟨-, -, -, -, -, hnames⟩ := hbatch
        rw [Sink.writeAll] at h
        split at h
        · cases h
          exact hnames
        · cases h
  · obtain ⟨hresult, rfl⟩ := Prod.mk.inj h
    rw [withContext_eq_ok_iff] at hresult
    exact names_of_bytestreamReadInto (Prod.ext hresult rfl)

theorem downloadBlob_eq_ok_iff (config : CasConfig) (server : Server) (digest : Digest)
    (bytes : Bytes) :
    downloadBlob config server digest = .ok bytes ↔
      streamBlob config server digest .memory = (.ok (), bytes) := by
  rw [downloadBlob]
  dsimp only
  rw [Result.map_eq_ok_iff, Prod.ext_iff]
  exact ⟨fun ⟨_, hok, hbytes⟩ => ⟨hok, hbytes⟩, fun ⟨hok, hbytes⟩ => ⟨(), hok, hbytes⟩⟩

theorem downloadBlob_of_small {config : CasConfig} {digest : Digest} (server : Server)
    (bytes : Bytes) (hsmall : digest.sizeBytes ≤ config.downloadBlobStreamThresholdBytes) :
    downloadBlob config server digest = .ok bytes ↔
      ∃ buffer, batchReadBlob config server digest = .ok buffer ∧ buffer.val = bytes := by
  rw [downloadBlob_eq_ok_iff, streamBlob, digestSizeUsize_eq]
  dsimp only
  rw [if_pos hsmall]
  cases hbatch : batchReadBlob config server digest with
  | error e => simp
  | ok buffer =>
      simp [Sink.writeAll, Sink.memory, Except.mapError]

theorem downloadBlob_of_large {config : CasConfig} {digest : Digest} (server : Server)
    (bytes : Bytes) (hlarge : config.downloadBlobStreamThresholdBytes < digest.sizeBytes) :
    downloadBlob config server digest = .ok bytes ↔
      bytestreamReadInto config server digest .memory = (.ok (), bytes) := by
  rw [downloadBlob_eq_ok_iff, streamBlob, digestSizeUsize_eq]
  dsimp only
  rw [if_neg (Nat.not_le.mpr hlarge), Prod.ext_iff, Prod.ext_iff]
  dsimp only
  rw [withContext_eq_ok_iff]

theorem bytestreamReadInto_of_chunks {config : CasConfig} {server : Server} {digest : Digest}
    (chunks : List Buffer)
    (hopen : retryRpc config .byteStreamRead (server.read (readRequest config digest)) =
      .ok (chunks.map .chunk))
    (hsize : (chunks.map Subtype.val).flatten.length ≤ u64Max) :
    bytestreamReadInto config server digest .memory =
        (.ok (), (chunks.map Subtype.val).flatten) ↔
      digest.Names (chunks.map Subtype.val).flatten := by
  have hcopy := copyChunks_memory config digest
    (bytestreamReadResourceName config.instanceName digest) chunks .start
    (by rwa [Streamed.start, Nat.zero_add])
  have hverify := verifyStreamed_eq_ok_iff digest
    (copyChunks_consistent _ _ _ Streamed.start_consistent hcopy)
  rw [bytestreamReadInto, hopen, withContext_ok]
  dsimp only
  rw [hcopy, Prod.ext_iff]
  simpa [Streamed.start] using hverify

/-- A server that serves one content for a digest on both routes, without errors. -/
structure Server.Serves (server : Server) (config : CasConfig) (digest : Digest)
    (content : Bytes) : Prop where
  batch : ∃ response rest, server.batchReadBlobs (batchReadRequest config digest) 1 =
      .ok (response :: rest) ∧
    (response.status.filter fun status => status.code ≠ 0) = none ∧
    response.data.val = content
  stream : ∃ chunks : List Buffer, server.read (readRequest config digest) 1 =
      .ok (chunks.map .chunk) ∧ (chunks.map Subtype.val).flatten = content

section Serves

variable {server : Server} {config : CasConfig} {digest : Digest} {content : Bytes}
  (h : server.Serves config digest content)

include h

theorem Server.Serves.batchReadBlob_iff :
    (∃ buffer, batchReadBlob config server digest = .ok buffer ∧ buffer.val = content) ↔
      digest.Names content := by
  obtain ⟨response, rest, hrpc, hstatus, rfl⟩ := h.batch
  constructor
  · rintro ⟨buffer, hbatch, hbuffer⟩
    obtain ⟨-, -, -, -, -, hnames⟩ := (batchReadBlob_eq_ok_iff _ _ _ _).mp hbatch
    rwa [hbuffer] at hnames
  · intro hnames
    refine ⟨response.data, (batchReadBlob_eq_ok_iff _ _ _ _).mpr ?_, rfl⟩
    exact ⟨response, rest, retryRpc_of_ok hrpc, hstatus, rfl, hnames⟩

theorem Server.Serves.bytestreamReadInto_iff :
    bytestreamReadInto config server digest .memory = (.ok (), content) ↔
      digest.Names content := by
  obtain ⟨response, -, -, -, hdata⟩ := h.batch
  obtain ⟨chunks, hrpc, hchunks⟩ := h.stream
  have hsize : (chunks.map Subtype.val).flatten.length ≤ u64Max := by
    rw [hchunks, ← hdata]
    exact response.data.property.trans (by decide)
  rw [← hchunks]
  exact bytestreamReadInto_of_chunks chunks (retryRpc_of_ok hrpc) hsize

theorem Server.Serves.downloadBlob_iff :
    downloadBlob config server digest = .ok content ↔ digest.Names content := by
  rcases Nat.lt_or_ge config.downloadBlobStreamThresholdBytes digest.sizeBytes with
    hlarge | hsmall
  · rw [downloadBlob_of_large server content hlarge]
    exact h.bytestreamReadInto_iff
  · rw [downloadBlob_of_small server content hsmall]
    exact h.batchReadBlob_iff

end Serves

/-- A download that succeeds is verified, on both routes and for every server. A
content served on both is accepted exactly when the digest names it, whatever the
threshold between the routes. -/
theorem download_verified (config : CasConfig) (server : Server) (digest : Digest) :
    (∀ bytes, downloadBlob config server digest = .ok bytes → digest.Names bytes) ∧
      (∀ sink written, streamBlob config server digest sink = (.ok (), written) →
        digest.Names written) ∧
      ∀ content, server.Serves config digest content →
        ((∃ buffer, batchReadBlob config server digest = .ok buffer ∧
            buffer.val = content) ↔ digest.Names content) ∧
          (bytestreamReadInto config server digest .memory = (.ok (), content) ↔
            digest.Names content) ∧
          ∀ threshold, downloadBlob
              { config with downloadBlobStreamThresholdBytes := threshold } server digest =
                .ok content ↔ digest.Names content := by
  refine ⟨?_, fun _ _ h => names_of_streamBlob h, ?_⟩
  · intro bytes h
    exact names_of_streamBlob ((downloadBlob_eq_ok_iff _ _ _ _).mp h)
  · intro content h
    refine ⟨h.batchReadBlob_iff, h.bytestreamReadInto_iff, fun threshold => ?_⟩
    have hserves : server.Serves
        { config with downloadBlobStreamThresholdBytes := threshold } digest content :=
      ⟨h.batch, h.stream⟩
    exact hserves.downloadBlob_iff

end Verdict

namespace Sample

@[reducible] def sha256 : Sha256 :=
  Digest.Sample.sha256

def digest : Digest :=
  Digest.Sample.contentDigest

def config : CasConfig where
  casUrl := "grpc://localhost:9092"
  instanceName := "main"
  downloadBlobStreamThresholdBytes := 1
  batchUpdateBudgetBytes := 1
  maxAttempts := 2

def whole : Buffer :=
  ⟨[104, 105], by decide⟩

def head : Buffer :=
  ⟨[104], by decide⟩

/-- The content in one response, and in three chunks of which one is empty. -/
def server : Server where
  batchReadBlobs _ _ := .ok [⟨whole, none⟩]
  read _ _ := .ok [.chunk head, .chunk ⟨[], by decide⟩, .chunk ⟨[105], by decide⟩]

theorem server_serves : server.Serves config digest [104, 105] where
  batch := ⟨_, _, rfl, rfl, rfl⟩
  stream := ⟨[head, ⟨[], by decide⟩, ⟨[105], by decide⟩], rfl, rfl⟩

end Sample

/-- Both routes deliver the content. -/
theorem download_verified_sample :
    letI : Sha256 := Sample.sha256
    downloadBlob Sample.config Sample.server Sample.digest = .ok [104, 105] ∧
      ∃ buffer, batchReadBlob Sample.config Sample.server Sample.digest = .ok buffer ∧
        buffer.val = [104, 105] := by
  let _ : Sha256 := Sample.sha256
  have hnames : Sample.digest.Names [104, 105] := ⟨by decide +kernel, rfl⟩
  obtain ⟨-, -, hserves⟩ := download_verified Sample.config Sample.server Sample.digest
  obtain ⟨hbatch, -, hdownload⟩ := hserves _ Sample.server_serves
  exact ⟨(hdownload 1).mpr hnames, hbatch.mpr hnames⟩

end Cas

end RemoteFs
