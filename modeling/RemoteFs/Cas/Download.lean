import RemoteFs.Cas.Error
import RemoteFs.Library.Retry
import RemoteFs.Reapi

/-!
# Verified downloads

A blob is downloaded by one of two routes. Up to a configured size it comes in one
`BatchReadBlobs` response, which is verified as a whole; above it, in the chunks of
a `ByteStream.Read`, which are written to the destination as they arrive while a
running hash and a counter follow along.

The server is arbitrary: `Server` gives, for each request and each attempt, what the
client sees of it. An attempt may answer with a status or not in time; a response list
may be empty; a stream may fail or fall silent after any chunk.
-/

namespace RemoteFs

namespace Cas

structure CasConfig where
  casUrl : String
  instanceName : String
  downloadBlobStreamThresholdBytes : ℕ
  batchUpdateBudgetBytes : ℕ
  maxAttempts : ℕ

def maxRetryAttempts : ℕ := 5

def validateRetryAttempts (maxAttempts : ℕ) : Except CasError Unit :=
  if maxAttempts = 0 then .error (.invalidRetryAttempts maxAttempts "must be at least 1")
  else if maxAttempts > maxRetryAttempts then
    .error (.invalidRetryAttempts maxAttempts s!"must not exceed {maxRetryAttempts}")
  else .ok ()

/-- A byte vector; its length fits the `isize` of the allocator. -/
abbrev Buffer := { bytes : Bytes // bytes.length ≤ i64Max }

structure RpcStatus where
  code : Int32
  message : String

structure BatchReadBlobsRequest where
  instanceName : String
  digests : List Reapi.Digest
  acceptableCompressors : List Int32

structure BatchReadBlobsResponse where
  data : Buffer
  status : Option RpcStatus

structure ReadRequest where
  resourceName : String
  readOffset : ℕ
  readLimit : ℕ

/-- What the client sees next of a `ByteStream.Read`. -/
inductive ReadEvent where
  | chunk (data : Buffer)
  | failed (status : Status)
  | idle

/-- How an attempt of an RPC fails: with a status, or not in time. -/
inductive AttemptFailure where
  | status (status : Status)
  | elapsed

/-- What the client sees of the server, for each request and attempt. A stream ends
with its list of events. -/
structure Server where
  batchReadBlobs : BatchReadBlobsRequest → ℕ →
    Except AttemptFailure (List BatchReadBlobsResponse)
  read : ReadRequest → ℕ → Except AttemptFailure (List ReadEvent)

namespace AttemptFailure

def retryable : AttemptFailure → Bool
  | .status answer => isRetryableStatus answer
  | .elapsed => true

def reported : AttemptFailure → Status
  | .status answer => answer
  | .elapsed => ⟨.deadlineExceeded, "operation attempt timed out"⟩

end AttemptFailure

def retryRpc {α : Type} (config : CasConfig) (operation : CasOperation)
    (op : ℕ → Except AttemptFailure α) : Except CasError α :=
  (Retry.loop AttemptFailure.retryable config.maxAttempts op 1).mapError
    fun (attempts, failure) =>
      .rpc operation attempts config.casUrl config.instanceName failure.reported

def tryFromIntError : String := "out of range integral type conversion attempted"

def digestSizeUsize (digest : Digest) : Except CasError ℕ :=
  if digest.sizeBytes ≤ u64Max then .ok digest.sizeBytes
  else
    .error (.reApiConversion s!"convert digest size for {digest.display} into usize"
      tryFromIntError)

def bytestreamReadResourceName (instanceName : String) (digest : Digest) : String :=
  s!"{instanceName}/blobs/{digest.hash}/{digest.sizeBytes}"

def batchReadRequest (config : CasConfig) (digest : Digest) : BatchReadBlobsRequest where
  instanceName := config.instanceName
  digests := [digest.toReapi]
  acceptableCompressors := [0]

/-- The request for a blob from its first byte to its last. -/
def readRequest (config : CasConfig) (digest : Digest) : ReadRequest where
  resourceName := bytestreamReadResourceName config.instanceName digest
  readOffset := 0
  readLimit := 0

/-- A destination: given what it holds and the data to write, the write succeeds, or
fails after a number of bytes. -/
abbrev Sink := Bytes → Bytes → Option (IoError × ℕ)

namespace Sink

def memory : Sink := fun _ _ => none

def writeAll (sink : Sink) (written data : Bytes) : Except IoError Unit × Bytes :=
  match sink written data with
  | none => (.ok (), written ++ data)
  | some (source, accepted) => (.error source, written ++ data.take accepted)

end Sink

/-- A download in progress: what the destination holds, the bytes the hasher was fed
and the counter. -/
structure Streamed where
  destination : Bytes
  hasher : Bytes
  written : ℕ

def Streamed.start : Streamed := ⟨[], [], 0⟩

def readError (config : CasConfig) (status : Status) : CasError :=
  .rpc .byteStreamRead 1 config.casUrl config.instanceName status

/-- Copy the chunks of a stream to the destination, up to its end or a failure. -/
def copyChunks (config : CasConfig) (digest : Digest) (resourceName : String) (sink : Sink) :
    List ReadEvent → Streamed → Except CasError Unit × Streamed
  | [], s => (.ok (), s)
  | .idle :: _, s =>
      (.error (readError config
        ⟨.deadlineExceeded, s!"idle timeout reading {digest.display}"⟩), s)
  | .failed status :: _, s =>
      (.error (readError config ⟨status.code, s!"read next ByteStream chunk for " ++
        s!"{digest.display} resource {resourceName}: {status.message}"⟩), s)
  | .chunk data :: events, s =>
      match sink.writeAll s.destination data.val with
      | (.error source, destination) =>
          (.error (.streamWrite digest source), { s with destination := destination })
      | (.ok (), destination) =>
          if s.written + data.val.length ≤ u64Max then
            copyChunks config digest resourceName sink events
              { destination := destination
                hasher := s.hasher ++ data.val
                written := s.written + data.val.length }
          else
            (.error (.blobStatus .byteStreamRead digest
              "downloaded byte counter overflowed u64"),
              { destination := destination
                hasher := s.hasher ++ data.val
                written := s.written })

section Download

variable [Sha256]

def verifyDownload (digest : Digest) (bytes : Bytes) : Except CasError Unit :=
  (digest.verifyBytes bytes).mapError fun source => .verification digest source

def batchReadBlob (config : CasConfig) (server : Server) (digest : Digest) :
    Except CasError Buffer := do
  let responses ← withContext
    (retryRpc config .batchReadBlobs (server.batchReadBlobs (batchReadRequest config digest)))
    s!"read blob {digest.display} with BatchReadBlobs"
  match responses.head? with
  | none => .error (.missingResponse .batchReadBlobs digest)
  | some response =>
      match response.status.filter fun status => status.code ≠ 0 with
      | some status => .error (.blobStatus .batchReadBlobs digest status.message)
      | none => do
          withContext (verifyDownload digest response.data.val)
            s!"verify BatchReadBlobs response for {digest.display}"
          .ok response.data

/-- Compare what was streamed with the digest. The constructor of the actual digest
accepts the output of the hasher, by `Digest.new_ofNat`. -/
def verifyStreamed (digest : Digest) (s : Streamed) : Except CasError Unit :=
  if hsize : s.written ≤ i64Max then
    let actual : Digest :=
      ⟨hexEncode (Sha256.digest s.hasher).toList, s.written, hexEncode_valid _, hsize⟩
    if actual ≠ digest then
      .error (.blobStatus .byteStreamRead digest s!"downloaded digest was {actual.display}")
    else .ok ()
  else
    .error (.reApiConversion s!"convert streamed size for {digest.display} into i64"
      tryFromIntError)

def bytestreamReadInto (config : CasConfig) (server : Server) (digest : Digest)
    (sink : Sink) : Except CasError Unit × Bytes :=
  let resourceName := bytestreamReadResourceName config.instanceName digest
  let response := withContext
    (retryRpc config .byteStreamRead (server.read (readRequest config digest)))
    s!"start ByteStream.Read for {digest.display} resource {resourceName}"
  match response with
  | .error e => (.error e, [])
  | .ok events =>
      match copyChunks config digest resourceName sink events .start with
      | (.error e, s) => (.error e, s.destination)
      | (.ok (), s) => (verifyStreamed digest s, s.destination)

def streamBlob (config : CasConfig) (server : Server) (digest : Digest) (sink : Sink) :
    Except CasError Unit × Bytes :=
  match digestSizeUsize digest with
  | .error e => (.error e, [])
  | .ok size =>
      if size ≤ config.downloadBlobStreamThresholdBytes then
        match withContext (batchReadBlob config server digest)
            s!"download blob {digest.display} through BatchReadBlobs" with
        | .error e => (.error e, [])
        | .ok bytes =>
            let (result, written) := sink.writeAll [] bytes.val
            (result.mapError fun source => .streamWrite digest source, written)
      else
        let (result, written) := bytestreamReadInto config server digest sink
        (withContext result s!"download blob {digest.display} through ByteStream.Read",
          written)

def downloadBlob (config : CasConfig) (server : Server) (digest : Digest) :
    Except CasError Bytes :=
  let (result, bytes) := streamBlob config server digest .memory
  result.map fun _ => bytes

end Download

end Cas

end RemoteFs
