import RemoteFs.Cas.Config
import RemoteFs.Cas.DownloadSpec
import RemoteFs.Cas.WriteVerdict
import RemoteFs.Library.Protobuf

/-!
# The size of a download in one message

A blob up to the download threshold is asked for with `BatchReadBlobs` and comes in one
message, with its digest and the framing of its fields around it. The client refuses to
decode a message above four mebibytes, and the default threshold is the same number: a
blob whose size comes within the framing of it cannot be received on the route the client
takes for it, which is what `batch_read_received_iff` says exactly.
-/

namespace RemoteFs

/-- A number as the 64 bits that are written for it. -/
def int64Bits (n : Int64) : ℕ :=
  n.toUInt64.toNat

/-- An enumeration value or a code as the 64 bits that are written for it. -/
def int32Bits (n : Int32) : ℕ :=
  int64Bits n.toInt64

def Reapi.Digest.encode (digest : Reapi.Digest) : Bytes :=
  Protobuf.bytesField 1 (utf8Bytes digest.hash) ++
    Protobuf.varintField 2 (int64Bits digest.sizeBytes)

namespace Cas

def RpcStatus.encode (status : RpcStatus) : Bytes :=
  Protobuf.varintField 1 (int32Bits status.code) ++
    Protobuf.bytesField 2 (utf8Bytes status.message)

/-- One entry of a `BatchReadBlobs` response, with all its fields. -/
structure BatchReadEntry where
  digest : Option Reapi.Digest
  data : Buffer
  status : Option RpcStatus
  compressor : Int32

namespace BatchReadEntry

def encode (entry : BatchReadEntry) : Bytes :=
  (entry.digest.elim [] fun digest => Protobuf.messageField 1 digest.encode) ++
    Protobuf.bytesField 2 entry.data.val ++
    (entry.status.elim [] fun status => Protobuf.messageField 3 status.encode) ++
    Protobuf.varintField 4 (int32Bits entry.compressor)

def response (entry : BatchReadEntry) : BatchReadBlobsResponse where
  data := entry.data
  status := entry.status

end BatchReadEntry

def encodeBatchRead (entries : List BatchReadEntry) : Bytes :=
  (entries.map BatchReadEntry.encode).flatMap (Protobuf.messageField 1)

def maxDecodingMessageSize : ℕ := 4 * 1024 * 1024

/-- The entry for a blob that is held: its digest and its data. -/
def foundEntry (digest : Reapi.Digest) (data : Buffer) : BatchReadEntry where
  digest := some digest
  data := data
  status := none
  compressor := 0

def readEntry (content : Reapi.Digest → Option Buffer) (digest : Reapi.Digest) :
    BatchReadEntry :=
  match content digest with
  | some data => foundEntry digest data
  | none => ⟨some digest, ⟨[], Nat.zero_le _⟩, some ⟨5, "not found"⟩, 0⟩

/-- What the client sees of a server that answers each request from its contents: the
answer, or a failure of the attempt when the message is too large to be decoded. -/
def honestServer (content : Reapi.Digest → Option Buffer) (rejected : AttemptFailure)
    (read : ReadRequest → ℕ → Except AttemptFailure (List ReadEvent)) : Server where
  batchReadBlobs request _ :=
    let entries := request.digests.map (readEntry content)
    if (encodeBatchRead entries).length ≤ maxDecodingMessageSize then
      .ok (entries.map BatchReadEntry.response)
    else .error rejected
  read := read

theorem length_utf8Bytes (s : String) : (utf8Bytes s).length = s.utf8ByteSize :=
  rfl

theorem int64Bits_ofNat (n : ℕ) (h : n ≤ i64Max) : int64Bits (Int64.ofNat n) = n := by
  have hlt : n < 2 ^ 64 := Nat.lt_of_le_of_lt h (by decide)
  rw [int64Bits]
  exact Nat.mod_eq_of_lt hlt

/-- The length of an encoded digest of a given size. -/
def digestLength (size : ℕ) : ℕ :=
  66 + if size = 0 then 0 else 1 + Protobuf.varintLength size

theorem length_encode_toReapi (digest : Digest) :
    digest.toReapi.encode.length = digestLength digest.sizeBytes := by
  have hhash : (utf8Bytes digest.toReapi.hash).length = 64 :=
    (length_utf8Bytes _).trans digest.hash_valid.length
  have hsize : int64Bits digest.toReapi.sizeBytes = digest.sizeBytes :=
    int64Bits_ofNat _ digest.size_le
  rw [Reapi.Digest.encode, List.length_append, Protobuf.length_bytesField 1 _ (by decide),
    Protobuf.length_varintField 2 _ (by decide), hhash, hsize,
    Protobuf.varintLength_of_lt 64 (by decide)]
  rfl

/-- The length of the digest and data fields of an entry for a blob of a given size. -/
def entryLength (size : ℕ) : ℕ :=
  1 + Protobuf.varintLength (digestLength size) + digestLength size +
    if size = 0 then 0 else 1 + Protobuf.varintLength size + size

def framedLength (size : ℕ) : ℕ :=
  1 + Protobuf.varintLength (entryLength size) + entryLength size

theorem length_encode_foundEntry (digest : Digest) (data : Buffer)
    (hdata : data.val.length = digest.sizeBytes) :
    (foundEntry digest.toReapi data).encode.length = entryLength digest.sizeBytes := by
  have hcompressor : (Protobuf.varintField 4 (int32Bits 0)).length = 0 := rfl
  simp only [foundEntry, BatchReadEntry.encode, Option.elim_some, Option.elim_none,
    List.length_append, List.length_nil, hcompressor, Nat.add_zero]
  rw [Protobuf.length_messageField 1 _ (by decide), Protobuf.length_bytesField 2 _ (by decide),
    length_encode_toReapi, hdata]
  rfl

theorem length_encodeBatchRead (digest : Digest) (data : Buffer)
    (hdata : data.val.length = digest.sizeBytes) :
    (encodeBatchRead [foundEntry digest.toReapi data]).length =
      framedLength digest.sizeBytes := by
  rw [encodeBatchRead, Protobuf.length_flatMap_messageField 1 _ (by decide)]
  simp only [List.map_cons, List.map_nil, List.sum_singleton,
    length_encode_foundEntry digest data hdata]
  rfl

theorem varintLength_digestLength (size : ℕ) (h : size ≤ i64Max) :
    Protobuf.varintLength (digestLength size) = 1 := by
  have hsize : Protobuf.varintLength size ≤ 10 :=
    Protobuf.varintLength_le 9 size (Nat.lt_of_le_of_lt h (by decide))
  apply Protobuf.varintLength_of_lt
  rw [digestLength]
  split <;> omega

/-- The framing of a blob below 2 ^ 28 bytes takes at most 83 bytes. -/
theorem framedLength_le (size : ℕ) (h : size + 78 < 128 ^ 4) : framedLength size ≤ size + 83 := by
  have hmax : size ≤ i64Max := Nat.le_trans (Nat.le_of_lt (Nat.lt_of_add_right_lt h)) (by decide)
  have hsize := Protobuf.varintLength_le 3 size (by omega)
  have hentry : entryLength size ≤ size + 78 := by
    rw [entryLength, varintLength_digestLength size hmax, digestLength]
    split <;> omega
  have hframe := Protobuf.varintLength_le 3 (entryLength size) (by omega)
  rw [framedLength]
  omega

theorem framedLength_eq (size : ℕ) (hlow : 128 ^ 3 ≤ size) (h : size + 78 < 128 ^ 4) :
    framedLength size = size + 83 := by
  have hmax : size ≤ i64Max := Nat.le_trans (Nat.le_of_lt (Nat.lt_of_add_right_lt h)) (by decide)
  have hpos : size ≠ 0 := by omega
  have hsize : Protobuf.varintLength size = 4 :=
    Nat.le_antisymm (Protobuf.varintLength_le 3 size (by omega))
      (Protobuf.le_varintLength 3 size hlow)
  have hentry : entryLength size = size + 78 := by
    rw [entryLength, varintLength_digestLength size hmax, digestLength, if_neg hpos,
      if_neg hpos, hsize]
    omega
  have hframe : Protobuf.varintLength (size + 78) = 4 :=
    Nat.le_antisymm (Protobuf.varintLength_le 3 _ h)
      (Protobuf.le_varintLength 3 _ (by omega))
  rw [framedLength, hentry, hframe]
  omega

theorem framedLength_le_max_iff (size : ℕ)
    (h : size ≤ defaultDownloadBlobStreamThresholdBytes) :
    framedLength size ≤ maxDecodingMessageSize ↔ size + 83 ≤ maxDecodingMessageSize := by
  have hthreshold : defaultDownloadBlobStreamThresholdBytes = 4194304 := rfl
  have hlimit : maxDecodingMessageSize = 4194304 := rfl
  have hbound : size + 78 < 128 ^ 4 := by omega
  by_cases hlow : 128 ^ 3 ≤ size
  · rw [framedLength_eq size hlow hbound]
  · have hle := framedLength_le size hbound
    omega

theorem retryRpc_ne_ok {α : Type} {config : CasConfig} {operation : CasOperation}
    {op : ℕ → Except AttemptFailure α} (failure : AttemptFailure)
    (h : ∀ attempt, op attempt = .error failure) (a : α) :
    retryRpc config operation op ≠ .ok a := by
  have hloop : ∀ k attempt, config.maxAttempts - attempt ≤ k →
      Retry.loop AttemptFailure.retryable config.maxAttempts op attempt ≠ .ok a := by
    intro k
    induction k with
    | zero =>
        intro attempt hk
        rw [Retry.loop, h]
        dsimp only
        rw [if_neg (fun hagain => by omega)]
        exact fun hok => by cases hok
    | succ k ih =>
        intro attempt hk
        rw [Retry.loop, h]
        dsimp only
        split
        · exact ih (attempt + 1) (by omega)
        · exact fun hok => by cases hok
  rw [retryRpc, Ne, Result.mapError_eq_ok_iff]
  exact hloop _ 1 (Nat.le_refl _)

/-- A blob up to the default threshold, which is asked for in one message, is received
exactly when its size leaves room for the framing. -/
theorem batch_read_received_iff [Sha256] (casUrl instanceName : String)
    (content : Reapi.Digest → Option Buffer) (rejected : AttemptFailure)
    (read : ReadRequest → ℕ → Except AttemptFailure (List ReadEvent)) (digest : Digest)
    (data : Buffer) (hcontent : content digest.toReapi = some data)
    (hdigest : digest.Names data.val)
    (hsmall : digest.sizeBytes ≤ defaultDownloadBlobStreamThresholdBytes) :
    ((encodeBatchRead [foundEntry digest.toReapi data]).length ≤ maxDecodingMessageSize ↔
      digest.sizeBytes + 83 ≤ maxDecodingMessageSize) ∧
    (downloadBlob (CasConfig.defaults casUrl instanceName)
        (honestServer content rejected read) digest = .ok data.val ↔
      digest.sizeBytes + 83 ≤ maxDecodingMessageSize) := by
  have hlength := length_encodeBatchRead digest data hdigest.2
  have hfits := framedLength_le_max_iff digest.sizeBytes hsmall
  have hentries : (batchReadRequest (CasConfig.defaults casUrl instanceName)
      digest).digests.map (readEntry content) = [foundEntry digest.toReapi data] := by
    simp [batchReadRequest, readEntry, hcontent]
  refine ⟨hlength ▸ hfits, ?_⟩
  rw [downloadBlob_of_small _ _ hsmall, ← hfits, ← hlength]
  constructor
  · rintro ⟨buffer, hread, -⟩
    obtain ⟨response, rest, hrpc, -⟩ := (batchReadBlob_eq_ok_iff _ _ _ _).mp hread
    by_contra hlarge
    refine retryRpc_ne_ok rejected ?_ (response :: rest) hrpc
    intro attempt
    simp only [honestServer, hentries]
    exact if_neg hlarge
  · intro hfit
    refine ⟨data, (batchReadBlob_eq_ok_iff _ _ _ _).mpr ?_, rfl⟩
    refine ⟨(foundEntry digest.toReapi data).response, [], retryRpc_of_ok ?_, rfl, rfl, hdigest⟩
    simp only [honestServer, hentries]
    exact if_pos hfit

/-- The theorem on a blob of two bytes. -/
theorem batch_read_received_iff_sample :
    letI := Sample.sha256
    Sample.digest.sizeBytes ≤ defaultDownloadBlobStreamThresholdBytes ∧
      downloadBlob (CasConfig.defaults "grpc://localhost:9092" "main")
        (honestServer (fun _ => some Sample.whole) .elapsed fun _ _ => .ok [])
        Sample.digest = .ok Sample.whole.val := by
  let _ := Sample.sha256
  have hnames : Sample.digest.Names Sample.whole.val := ⟨by decide +kernel, rfl⟩
  have hsmall : Sample.digest.sizeBytes ≤ defaultDownloadBlobStreamThresholdBytes := by decide
  exact ⟨hsmall, (batch_read_received_iff "grpc://localhost:9092" "main"
    (fun _ => some Sample.whole) .elapsed (fun _ _ => .ok []) Sample.digest Sample.whole rfl
    hnames hsmall).2.mpr (by decide)⟩

def Sample.zeros : Buffer :=
  ⟨List.replicate 4194304 0, by rw [List.length_replicate]; decide⟩

/-- A blob of exactly the default threshold: its response is too large to be decoded. -/
theorem threshold_blob_not_received :
    FileWrite.Sample.digest.sizeBytes ≤
        (CasConfig.defaults "grpc://localhost:9092" "main").downloadBlobStreamThresholdBytes ∧
      Sample.zeros.val.length = FileWrite.Sample.digest.sizeBytes ∧
      ¬ (encodeBatchRead [foundEntry FileWrite.Sample.digest.toReapi Sample.zeros]).length ≤
        4 * 1024 * 1024 := by
  have hlength : Sample.zeros.val.length = FileWrite.Sample.digest.sizeBytes :=
    List.length_replicate
  refine ⟨Nat.le_refl _, hlength, ?_⟩
  rw [length_encodeBatchRead FileWrite.Sample.digest Sample.zeros hlength,
    framedLength_eq FileWrite.Sample.digest.sizeBytes (by decide) (by decide)]
  decide

end Cas

end RemoteFs
