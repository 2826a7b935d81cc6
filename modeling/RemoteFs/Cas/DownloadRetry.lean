import RemoteFs.Cas.DownloadSpec

/-!
# Transient failures of a large download

The retry loop of a `ByteStream.Read` encloses the opening of the stream only. A
failure while it is opened is followed by another attempt from the first byte; a
failure inside the stream, of the same kind, ends the download.

`download_retries_iff` says what this means for a blob that some attempt within the
limit delivers after transient failures: a small blob is returned, and a large one
exactly when no earlier attempt was opened.
-/

namespace RemoteFs

namespace Cas

def ReadEvent.Interrupts : ReadEvent → Prop
  | .chunk _ => False
  | .failed status => isRetryableStatus status = true
  | .idle => True

/-- An attempt of a read: opening it fails, or it is given as the events of the
stream. -/
abbrev ReadAttempt := Except AttemptFailure (List ReadEvent)

namespace ReadAttempt

def Opens (attempt : ReadAttempt) : Prop :=
  ∃ events, attempt = .ok events

/-- The attempt fails in a way that is worth another one, in opening the stream or
after some chunks of it. -/
def FailsTransiently (attempt : ReadAttempt) : Prop :=
  Retry.Transient AttemptFailure.retryable attempt ∨
    ∃ (chunks : List Buffer) (event : ReadEvent) (rest : List ReadEvent),
      attempt = .ok (chunks.map .chunk ++ event :: rest) ∧ event.Interrupts

def Delivers (attempt : ReadAttempt) (blob : Bytes) : Prop :=
  ∃ chunks : List Buffer,
    attempt = .ok (chunks.map .chunk) ∧ (chunks.map Subtype.val).flatten = blob

theorem FailsTransiently.transient {attempt : ReadAttempt} (h : attempt.FailsTransiently)
    (hopens : ¬ attempt.Opens) : Retry.Transient AttemptFailure.retryable attempt := by
  rcases h with htransient | ⟨chunks, event, rest, hevents, -⟩
  · exact htransient
  · exact absurd ⟨_, hevents⟩ hopens

end ReadAttempt

/-- An attempt of a batch read whose first response carries these bytes. -/
def BatchDelivers (attempt : Except AttemptFailure (List BatchReadBlobsResponse))
    (blob : Bytes) : Prop :=
  ∃ response rest, attempt = .ok (response :: rest) ∧
    (response.status.filter fun status => status.code ≠ 0) = none ∧ response.data.val = blob

theorem copyChunks_interrupted {config : CasConfig} {digest : Digest} {resourceName : String}
    {sink : Sink} (chunks : List Buffer) {event : ReadEvent} (hevent : event.Interrupts)
    (rest : List ReadEvent) (s s' : Streamed) :
    copyChunks config digest resourceName sink (chunks.map .chunk ++ event :: rest) s ≠
      (.ok (), s') := by
  induction chunks generalizing s with
  | nil =>
      cases event with
      | chunk data => exact hevent.elim
      | failed status => exact fun h => nomatch h
      | idle => exact fun h => nomatch h
  | cons chunk chunks ih =>
      intro h
      rw [List.map_cons, List.cons_append, copyChunks] at h
      split at h
      · cases h
      · split at h
        · exact ih _ h
        · cases h

section Retry

variable [Sha256] {config : CasConfig} {server : Server} {digest : Digest} {blob : Bytes}
  {k : ℕ}

theorem bytestreamReadInto_ne_ok {sink : Sink} (chunks : List Buffer) {event : ReadEvent}
    (hevent : event.Interrupts) (rest : List ReadEvent)
    (hopen : retryRpc config .byteStreamRead (server.read (readRequest config digest)) =
      .ok (chunks.map .chunk ++ event :: rest)) (written : Bytes) :
    bytestreamReadInto config server digest sink ≠ (.ok (), written) := by
  intro h
  rw [bytestreamReadInto, hopen, withContext_ok] at h
  dsimp only at h
  split at h
  · cases h
  · next s' hcopy => exact copyChunks_interrupted chunks hevent rest _ _ hcopy

/-- The first attempt that is opened decides the download, so an earlier one than the
one that delivers fails it. -/
theorem downloadBlob_ne_ok_of_opens (hk : k < config.maxAttempts)
    (hlarge : config.downloadBlobStreamThresholdBytes < digest.sizeBytes)
    (hfail : ∀ i < k, ReadAttempt.FailsTransiently
      (server.read (readRequest config digest) (1 + i)))
    (hopens : ∃ i < k, ReadAttempt.Opens (server.read (readRequest config digest) (1 + i)))
    (bytes : Bytes) : downloadBlob config server digest ≠ .ok bytes := by
  classical
  obtain ⟨hlt, events, hevents⟩ := Nat.find_spec hopens
  have hbefore : ∀ i < Nat.find hopens, Retry.Transient AttemptFailure.retryable
      (server.read (readRequest config digest) (1 + i)) := by
    intro i hi
    have hik : i < k := hi.trans hlt
    exact (hfail i hik).transient fun h => Nat.find_min hopens hi ⟨hik, h⟩
  have hopen : retryRpc config .byteStreamRead (server.read (readRequest config digest)) =
      .ok events :=
    retryRpc_of_transient (hlt.trans hk) hbefore hevents
  rcases hfail _ hlt with ⟨e, herror, -⟩ | ⟨chunks, event, rest, hstream, hevent⟩
  · rw [hevents] at herror
    cases herror
  · rw [hevents, Except.ok.injEq] at hstream
    rw [hstream] at hopen
    intro h
    exact bytestreamReadInto_ne_ok chunks hevent rest hopen bytes
      ((downloadBlob_of_large server bytes hlarge).mp h)

theorem downloadBlob_of_not_opens (hk : k < config.maxAttempts) (hnames : digest.Names blob)
    (hlarge : config.downloadBlobStreamThresholdBytes < digest.sizeBytes)
    (hfail : ∀ i < k, ReadAttempt.FailsTransiently
      (server.read (readRequest config digest) (1 + i)))
    (hopens : ∀ i < k, ¬ ReadAttempt.Opens (server.read (readRequest config digest) (1 + i)))
    (hdelivers : ReadAttempt.Delivers (server.read (readRequest config digest) (1 + k)) blob) :
    downloadBlob config server digest = .ok blob := by
  obtain ⟨chunks, hstream, rfl⟩ := hdelivers
  have hopen : retryRpc config .byteStreamRead (server.read (readRequest config digest)) =
      .ok (chunks.map .chunk) :=
    retryRpc_of_transient hk (fun i hi => (hfail i hi).transient (hopens i hi)) hstream
  have hsize : (chunks.map Subtype.val).flatten.length ≤ u64Max := by
    rw [hnames.2]
    exact digest.size_le.trans (by decide)
  rw [downloadBlob_of_large server _ hlarge]
  exact (bytestreamReadInto_of_chunks chunks hopen hsize).mpr hnames

theorem downloadBlob_of_batchDelivers (hk : k < config.maxAttempts)
    (hnames : digest.Names blob)
    (hsmall : digest.sizeBytes ≤ config.downloadBlobStreamThresholdBytes)
    (hfail : ∀ i < k, Retry.Transient AttemptFailure.retryable
      (server.batchReadBlobs (batchReadRequest config digest) (1 + i)))
    (hdelivers : BatchDelivers
      (server.batchReadBlobs (batchReadRequest config digest) (1 + k)) blob) :
    downloadBlob config server digest = .ok blob := by
  obtain ⟨response, rest, hresponse, hstatus, rfl⟩ := hdelivers
  rw [downloadBlob_of_small server _ hsmall]
  refine ⟨response.data, (batchReadBlob_eq_ok_iff _ _ _ _).mpr ?_, rfl⟩
  exact ⟨response, rest, retryRpc_of_transient hk hfail hresponse, hstatus, rfl, hnames⟩

end Retry

/-- Let attempt `k + 1`, within the limit, deliver the blob after transient failures. A
small blob is returned. A large blob is returned exactly when none of the failed
attempts was opened. -/
theorem download_retries_iff [Sha256] (config : CasConfig) (server : Server) (digest : Digest)
    (blob : Bytes) (k : ℕ) (hk : k < config.maxAttempts) (hnames : digest.Names blob) :
    (digest.sizeBytes ≤ config.downloadBlobStreamThresholdBytes →
      (∀ i < k, Retry.Transient AttemptFailure.retryable
        (server.batchReadBlobs (batchReadRequest config digest) (1 + i))) →
      BatchDelivers (server.batchReadBlobs (batchReadRequest config digest) (1 + k)) blob →
        downloadBlob config server digest = .ok blob) ∧
      (config.downloadBlobStreamThresholdBytes < digest.sizeBytes →
        (∀ i < k, ReadAttempt.FailsTransiently
          (server.read (readRequest config digest) (1 + i))) →
        ReadAttempt.Delivers (server.read (readRequest config digest) (1 + k)) blob →
          (downloadBlob config server digest = .ok blob ↔
            ∀ i < k, ¬ ReadAttempt.Opens (server.read (readRequest config digest) (1 + i)))) := by
  refine ⟨downloadBlob_of_batchDelivers hk hnames, fun hlarge hfail hdelivers => ⟨?_, ?_⟩⟩
  · intro hok i hi hopens
    exact downloadBlob_ne_ok_of_opens hk hlarge hfail ⟨i, hi, hopens⟩ blob hok
  · intro hopens
    exact downloadBlob_of_not_opens hk hnames hlarge hfail hopens hdelivers

namespace Sample

/-- A first attempt that is refused, and a second that delivers. -/
def refusing : Server where
  batchReadBlobs _ _ := .ok []
  read _ attempt :=
    if attempt = 1 then .error (.status ⟨.unavailable, ""⟩)
    else .ok [.chunk whole]

/-- A first attempt that breaks off after one chunk, and a second that delivers. -/
def breaking : Server where
  batchReadBlobs _ _ := .ok []
  read _ attempt :=
    if attempt = 1 then .ok [.chunk head, .failed ⟨.unavailable, ""⟩]
    else .ok [.chunk whole]

end Sample

/-- A refused attempt is retried. -/
theorem download_retries_iff_sample :
    letI : Sha256 := Sample.sha256
    downloadBlob Sample.config Sample.refusing Sample.digest = .ok [104, 105] := by
  let _ : Sha256 := Sample.sha256
  obtain ⟨-, hlarge⟩ := download_retries_iff Sample.config Sample.refusing Sample.digest
    [104, 105] 1 (by decide) ⟨by decide +kernel, rfl⟩
  refine (hlarge (by decide) ?_ ?_).mpr ?_
  · intro i hi
    obtain rfl := Nat.lt_one_iff.mp hi
    exact .inl ⟨_, rfl, rfl⟩
  · exact ⟨[⟨[104, 105], by decide⟩], rfl, rfl⟩
  · rintro i hi ⟨events, hevents⟩
    obtain rfl := Nat.lt_one_iff.mp hi
    cases hevents

/-- An attempt that breaks off is not, although the next one would deliver the blob. -/
theorem broken_download_not_retried :
    letI : Sha256 := Sample.sha256
    validateRetryAttempts Sample.config.maxAttempts = .ok () ∧
      Sample.config.downloadBlobStreamThresholdBytes < Sample.digest.sizeBytes ∧
      Sample.digest.Names [104, 105] ∧
      ReadAttempt.FailsTransiently
        (Sample.breaking.read (readRequest Sample.config Sample.digest) 1) ∧
      ReadAttempt.Delivers
        (Sample.breaking.read (readRequest Sample.config Sample.digest) 2) [104, 105] ∧
      ∃ e, downloadBlob Sample.config Sample.breaking Sample.digest = .error e := by
  let _ : Sha256 := Sample.sha256
  have hevent : ReadEvent.Interrupts (.failed ⟨.unavailable, ""⟩) := by
    exact (by decide : isRetryableStatus ⟨.unavailable, ""⟩ = true)
  refine ⟨rfl, by decide, ⟨by decide +kernel, rfl⟩,
    .inr ⟨[⟨[104], by decide⟩], _, [], rfl, hevent⟩, ⟨[⟨[104, 105], by decide⟩], rfl, rfl⟩, ?_⟩
  cases hdownload : downloadBlob Sample.config Sample.breaking Sample.digest with
  | error e => exact ⟨e, rfl⟩
  | ok bytes =>
      rw [downloadBlob_of_large _ _ (by decide)] at hdownload
      exact absurd hdownload (bytestreamReadInto_ne_ok [⟨[104], by decide⟩] hevent []
        (retryRpc_of_ok rfl) bytes)

end Cas

end RemoteFs
