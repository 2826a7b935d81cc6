import RemoteFs.Cas.ByteStreamWrite

/-!
# Uploading blobs in batches

`uploadBlobs` goes through the blobs in order. A blob larger than the budget is written
through ByteStream, after the open batch was sent; every other blob is loaded into memory
and added to the open batch, which is sent first when there is no room left.

What the disk and the server do is a parameter, `UploadPeer`: what reading the file of the
blob at a position gives, what the attempts of each batch are answered, and what happens
during the attempts of each write. The RPCs are kept in the order they are issued, also
when the upload fails; an RPC that is retried is kept once.
-/

namespace RemoteFs

namespace Cas

structure BatchUpdateEntry where
  digest : Option Reapi.Digest
  data : Bytes
  compressor : Int32

structure BatchUpdateBlobsRequest where
  instanceName : String
  requests : List BatchUpdateEntry

structure BatchUpdateResponse where
  digest : Option Reapi.Digest
  status : Option RpcStatus

/-- What the local disk and the server do during an upload. Blobs are numbered by their
position, batches by their index. -/
structure UploadPeer where
  read : ℕ → PathBuf → Except IoError Bytes
  batchUpdateBlobs : ℕ → BatchUpdateBlobsRequest → ℕ →
    Except AttemptFailure (List BatchUpdateResponse)
  write : ℕ → ℕ → WriteAttempt
  newV4 : ℕ → String

/-- An RPC of an upload. A write comes after `calls` UUIDs were made. -/
inductive Issued where
  | batch (index : ℕ) (request : BatchUpdateBlobsRequest)
  | write (position calls : ℕ) (blob : Blob)

structure BatchUpdateState where
  blobs : List Blob
  bytes : ℕ
  nextIndex : ℕ

namespace BatchUpdateState

def new : BatchUpdateState := ⟨[], 0, 0⟩

def isEmpty (self : BatchUpdateState) : Bool :=
  self.blobs.isEmpty

/-- The sum stays below `2 ^ 64`: the sizes of all blobs of an upload do. -/
def wouldExceedBudget (self : BatchUpdateState) (blobSize budget : ℕ) : Bool :=
  !self.isEmpty && decide (self.bytes + blobSize > budget)

def push (self : BatchUpdateState) (blob : Blob) (blobSize : ℕ) : BatchUpdateState :=
  { self with bytes := self.bytes + blobSize, blobs := self.blobs ++ [blob] }

def take (self : BatchUpdateState) : List Blob × BatchUpdateState :=
  (self.blobs, ⟨[], 0, self.nextIndex + 1⟩)

end BatchUpdateState

/-- The open batch, the RPCs issued so far, and the number of UUIDs made. -/
structure UploadState where
  batch : BatchUpdateState
  issued : List Issued
  calls : ℕ

def UploadState.start : UploadState := ⟨.new, [], 0⟩

def batchUpdateRequest (blob : Blob) : Except CasError BatchUpdateEntry :=
  match blob.contents with
  | .filePath _ =>
      .error (.blobStatus .batchUpdateBlobs blob.digest
        "batch construction requires byte-backed blob contents")
  | .bytes data => .ok { digest := some blob.digest.toReapi, data := data, compressor := 0 }

/-- Load a blob into memory, with the size its digest has. -/
def loadBlobAsBytes (read : PathBuf → Except IoError Bytes) (blob : Blob)
    (expectedSize : ℕ) : Except CasError Blob :=
  match blob.contents with
  | .bytes data =>
      if data.length ≠ expectedSize then
        .error (.blobStatus .batchUpdateBlobs blob.digest
          (s!"byte-backed blob size does not match digest: expected {expectedSize} bytes, " ++
            s!"got {data.length} bytes"))
      else .ok { digest := blob.digest, contents := .bytes data }
  | .filePath path => do
      let data ← (read path).mapError fun io => .io .batchUpdateBlobs path io
      if data.length ≠ expectedSize then
        .error (.blobStatus .batchUpdateBlobs blob.digest
          (s!"path-backed blob size changed before upload: expected {expectedSize} bytes, " ++
            s!"read {data.length} bytes"))
      else .ok { digest := blob.digest, contents := .bytes data }

def checkResponse (responses : List BatchUpdateResponse) (blob : Blob) :
    Except CasError Unit :=
  match responses.find? fun response => response.digest = some blob.digest.toReapi with
  | none => .error (.missingResponse .batchUpdateBlobs blob.digest)
  | some response =>
      match response.status.filter fun status => status.code ≠ 0 with
      | some status => .error (.blobStatus .batchUpdateBlobs blob.digest status.message)
      | none => .ok ()

section Upload

variable (config : CasConfig) (peer : UploadPeer)

def uploadBatchToCas (index : ℕ) (batch : List Blob) (s : UploadState) :
    Except CasError Unit × UploadState :=
  match batch.mapM batchUpdateRequest with
  | .error e => (.error e, s)
  | .ok requests =>
      let request : BatchUpdateBlobsRequest := ⟨config.instanceName, requests⟩
      let result := do
        let responses ← withContext
          (retryRpc config .batchUpdateBlobs (peer.batchUpdateBlobs index request))
          s!"send BatchUpdateBlobs request containing {batch.length} blob(s)"
        batch.forM (checkResponse responses)
      (result, { s with issued := s.issued ++ [.batch index request] })

def flushBatchUpdate (s : UploadState) : Except CasError Unit × UploadState :=
  if s.batch.isEmpty then (.ok (), s)
  else
    let batchIndex := s.batch.nextIndex
    let (blobs, batch) := s.batch.take
    let (result, s) := uploadBatchToCas config peer batchIndex blobs { s with batch := batch }
    (withContext result s!"upload BatchUpdateBlobs batch {batchIndex}", s)

def uploadOversizedBlob (position : ℕ) (blob : Blob) (s : UploadState) :
    Except CasError Unit × UploadState :=
  let run := bytestreamWriteBlob config peer.newV4 (peer.write position) blob s.calls
  (withContext run.result
    s!"upload oversized blob {blob.digest.display} through ByteStream.Write",
    { s with issued := s.issued ++ [.write position s.calls blob], calls := run.calls })

/-- The blob at a position goes into a batch, or through ByteStream. -/
def uploadNext (position : ℕ) (blob : Blob) (s : UploadState) :
    Except CasError Unit × UploadState :=
  match digestSizeUsize blob.digest with
  | .error e => (.error e, s)
  | .ok blobSize =>
      if blobSize > config.batchUpdateBudgetBytes then
        match flushBatchUpdate config peer s with
        | (.error e, s) => (.error e, s)
        | (.ok (), s) => uploadOversizedBlob config peer position blob s
      else
        match loadBlobAsBytes (peer.read position) blob blobSize with
        | .error e => (.error e, s)
        | .ok blob =>
            let flushed :=
              if s.batch.wouldExceedBudget blobSize config.batchUpdateBudgetBytes then
                flushBatchUpdate config peer s
              else (.ok (), s)
            match flushed with
            | (.error e, s) => (.error e, s)
            | (.ok (), s) => (.ok (), { s with batch := s.batch.push blob blobSize })

/-- The loop over the blobs, each with its position. -/
def uploadLoop : List (Blob × ℕ) → UploadState → Except CasError Unit × UploadState
  | [], s => flushBatchUpdate config peer s
  | (blob, position) :: blobs, s =>
      match uploadNext config peer position blob s with
      | (.error e, s) => (.error e, s)
      | (.ok (), s) => uploadLoop blobs s

def uploadBlobsToCas (blobs : List Blob) : Except CasError Unit × UploadState :=
  uploadLoop config peer blobs.zipIdx .start

end Upload

def digestSizeU64 (digest : Digest) : Except CasError ℕ :=
  if digest.sizeBytes ≤ u64Max then .ok digest.sizeBytes
  else
    .error (.reApiConversion s!"convert digest size for {digest.display} into u64"
      tryFromIntError)

def addUploaded (total : ℕ) (blob : Blob) : Except CasError ℕ := do
  let size ← digestSizeU64 blob.digest
  if total + size ≤ u64Max then .ok (total + size)
  else
    .error (.blobStatus .batchUpdateBlobs blob.digest "uploaded byte counter overflowed u64")

def uploadBlobs (config : CasConfig) (peer : UploadPeer) (blobs : List Blob) :
    Except CasError UploadStats × List Issued :=
  match blobs.foldlM addUploaded 0 with
  | .error e => (.error e, [])
  | .ok bytesUploaded =>
      let (result, s) := uploadBlobsToCas config peer blobs
      ((withContext result s!"upload {blobs.length} caller-selected blob(s)").map
        fun _ => ⟨blobs.length, bytesUploaded⟩, s.issued)

end Cas

end RemoteFs
