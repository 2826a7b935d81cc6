import RemoteFs.Cas.BatchSpec
import RemoteFs.Cas.MessageSize

/-!
# The size of a batch in one message

The budget of a batch counts the payload of its blobs. The message that carries the batch
also has the digest and the framing of every entry, some seventy bytes a blob, so it is
the number of entries that decides whether the allowance between the default budget and
four mebibytes is enough. `batch_messages_fit_iff` gives the exact condition on the sizes
of the blobs, and `Sample.tinyFiles` is an upload that misses it.
-/

namespace RemoteFs

namespace Cas

def BatchUpdateEntry.encode (entry : BatchUpdateEntry) : Bytes :=
  (entry.digest.elim [] fun digest => Protobuf.messageField 1 digest.encode) ++
    Protobuf.bytesField 2 entry.data ++ Protobuf.varintField 3 (int32Bits entry.compressor)

def BatchUpdateBlobsRequest.encode (request : BatchUpdateBlobsRequest) : Bytes :=
  Protobuf.bytesField 1 (utf8Bytes request.instanceName) ++
    (request.requests.map BatchUpdateEntry.encode).flatMap (Protobuf.messageField 2)

/-- The length of the field for the instance name. -/
def instanceNameLength (instanceName : String) : ℕ :=
  if instanceName.utf8ByteSize = 0 then 0
  else 1 + Protobuf.varintLength instanceName.utf8ByteSize + instanceName.utf8ByteSize

/-- The length of the message for a batch of blobs of the given sizes. -/
def batchMessageLength (instanceName : String) (sizes : List ℕ) : ℕ :=
  instanceNameLength instanceName + (sizes.map framedLength).sum

theorem length_encode_entry (blob : Blob) (h : blob.Loaded) :
    blob.entry.encode.length = entryLength blob.size := by
  have hcompressor : (Protobuf.varintField 3 (int32Bits 0)).length = 0 := rfl
  simp only [Blob.entry, BatchUpdateEntry.encode, Option.elim_some, List.length_append,
    hcompressor, Nat.add_zero]
  rw [Protobuf.length_messageField 1 _ (by decide), Protobuf.length_bytesField 2 _ (by decide),
    length_encode_toReapi, h.2]
  rfl

theorem length_encode_batch (instanceName : String) (blobs : List Blob)
    (h : ∀ blob ∈ blobs, blob.Loaded) :
    (BatchUpdateBlobsRequest.encode ⟨instanceName, blobs.map Blob.entry⟩).length =
      batchMessageLength instanceName (blobs.map Blob.size) := by
  rw [BatchUpdateBlobsRequest.encode, List.length_append,
    Protobuf.length_bytesField 1 _ (by decide),
    Protobuf.length_flatMap_messageField 2 _ (by decide), length_utf8Bytes,
    batchMessageLength, instanceNameLength, List.map_map, List.map_map, List.map_map]
  apply congrArg
  apply congrArg List.sum
  apply List.map_congr_left
  intro blob hblob
  simp only [Function.comp_apply, length_encode_entry blob (h blob hblob)]
  rfl

section Fit

variable (config : CasConfig)

theorem group_sizes_iff (blobs all : List Blob) (budget : ℕ)
    (hdigests : all.map Blob.digest = blobs.map Blob.digest) (sizes : List ℕ) :
    .group sizes ∈ Packing.pack id budget [] (blobs.map Blob.size) ↔
      ∃ group, .group group ∈ Packing.pack Blob.size budget [] all ∧
        group.map Blob.size = sizes := by
  have hsizes : blobs.map Blob.size = all.map Blob.size := by
    have hmap := congrArg (List.map Digest.sizeBytes) hdigests
    rw [List.map_map, List.map_map] at hmap
    exact hmap.symm
  have hpack := Packing.pack_map Blob.size id budget [] all
  rw [List.map_nil, Function.id_comp] at hpack
  rw [hsizes, hpack, List.mem_map]
  constructor
  · rintro ⟨parcel, hparcel, heq⟩
    cases parcel with
    | single blob => cases heq
    | group group =>
        cases heq
        exact ⟨group, hparcel, rfl⟩
  · rintro ⟨group, hgroup, rfl⟩
    exact ⟨.group group, hgroup, rfl⟩

theorem digests_of_zipIdx (blobs : List Blob) :
    (blobs.zipIdx.map fun blob => blob.1.digest) = blobs.map Blob.digest := by
  have hmap : (blobs.zipIdx.map fun blob => blob.1.digest) =
      (blobs.zipIdx.map Prod.fst).map Blob.digest := by
    rw [List.map_map]
    rfl
  rw [hmap, List.zipIdx_map_fst]

/-- Every message of an upload is the message of one of its groups, whatever the disk and
the server do. -/
theorem length_of_batch_mem (peer : UploadPeer) (blobs : List Blob) (index : ℕ)
    (request : BatchUpdateBlobsRequest)
    (h : .batch index request ∈ (uploadBlobsToCas config peer blobs).2.issued) :
    ∃ sizes, .group sizes ∈ Packing.pack id config.batchUpdateBudgetBytes []
        (blobs.map Blob.size) ∧
      request.encode.length = batchMessageLength config.instanceName sizes := by
  obtain ⟨all, sent, houtcome⟩ := uploadBlobsToCas_spec config peer blobs
  obtain ⟨group, hgroup, rfl, hloaded⟩ :=
    exists_group_of_batch config _ _ houtcome.sends index request h
  have hdigests := houtcome.digests.trans (digests_of_zipIdx blobs)
  refine ⟨group.map Blob.size, (group_sizes_iff blobs all _ hdigests _).mpr
    ⟨group, houtcome.sent_isPrefix.mem hgroup, rfl⟩, ?_⟩
  exact length_encode_batch config.instanceName group hloaded

/-- A disk that has bytes of the right size for every blob, and a server that accepts
everything. -/
def acceptingPeer (blobs : List Blob) : UploadPeer where
  read position _ := .ok (List.replicate ((blobs.map Blob.size).getD position 0) 0)
  batchUpdateBlobs := acceptAll
  write position _ :=
    let outcome : WriteOutcome := .ok (Int64.ofNat ((blobs.map Blob.size).getD position 0))
    { outcome := some outcome
      reads := .ok []
      schedule := [.openFile, .read, .send, .terminate outcome] }
  newV4 _ := "33333333-3333-4333-8333-333333333333"

/-- A blob as its constructors make it: bytes in memory have the size of their digest. -/
def Blob.WellFormed (blob : Blob) : Prop :=
  ∀ data, blob.contents = .bytes data → data.length = blob.size

theorem size_of_mem_zipIdx (blobs : List Blob) (blob : Blob) (position : ℕ)
    (h : (blob, position) ∈ blobs.zipIdx) :
    (blobs.map Blob.size).getD position 0 = blob.size := by
  have hget := List.mk_mem_zipIdx_iff_getElem?.mp h
  rw [List.getD_eq_getElem?_getD, List.getElem?_map, hget]
  rfl

theorem exists_prepare (blobs : List Blob) (blob : Blob × ℕ) (h : blob ∈ blobs.zipIdx)
    (hwell : blob.1.WellFormed) :
    ∃ sent, prepare config (acceptingPeer blobs) blob = .ok sent := by
  unfold prepare
  split
  · exact ⟨_, rfl⟩
  · unfold loadBlobAsBytes
    split
    · next data hdata =>
        rw [if_neg (not_not.mpr (hwell data hdata))]
        exact ⟨_, rfl⟩
    · have hread : ∀ path, (acceptingPeer blobs).read blob.2 path =
          .ok (List.replicate blob.1.size 0) := by
        intro path
        exact congrArg (fun size => Except.ok (List.replicate size 0))
          (size_of_mem_zipIdx blobs blob.1 blob.2 h)
      rw [hread]
      simp only [Except.mapError, Result.ok_bind, List.length_replicate, ne_eq,
        not_true_eq_false, if_false]
      exact ⟨_, rfl⟩

theorem attemptBlob_accepting (blobs : List Blob) (blob : Blob) (position attempt : ℕ)
    (h : (blob, position) ∈ blobs.zipIdx) (resourceName : String) :
    (attemptBlob resourceName blob ((acceptingPeer blobs).write position attempt)).result =
      .ok (Int64.ofNat blob.size) := by
  have hsize := size_of_mem_zipIdx blobs blob position h
  have hwrite : writeResult resourceName blob.digest (.ok (Int64.ofNat blob.size)) =
      .ok (Int64.ofNat blob.size) := by
    simp [writeResult, bytestreamCommittedSizeError, Except.mapError, Blob.size]
  unfold attemptBlob
  cases blob.contents with
  | bytes data =>
      simp only [attemptBytes, acceptingPeer, hsize, Option.map_some, attemptResult,
        sendBytestreamBytesWrite, hwrite]
      rfl
  | filePath path =>
      have hrun : Transition.run (FileWrite.step ⟨resourceName, path, .ok []⟩) .start
          [.openFile, .read, .send, .terminate (.ok (Int64.ofNat blob.size))] =
          some ⟨.done (.ok ()), [FileWrite.request ⟨resourceName, path, .ok []⟩ [] 0], [],
            [FileWrite.request ⟨resourceName, path, .ok []⟩ [] 0],
            some (.ok (Int64.ofNat blob.size)), false⟩ := rfl
      dsimp only [attemptFile, acceptingPeer]
      rw [hsize, hrun]
      simp only [FileWrite.returned, Result.ok_bind, hwrite]
      rfl

theorem exists_batch_of_group (blobs : List Blob) (hwell : ∀ blob ∈ blobs, blob.WellFormed)
    (sizes : List ℕ)
    (h : .group sizes ∈ Packing.pack id config.batchUpdateBudgetBytes []
      (blobs.map Blob.size)) :
    ∃ index request,
      .batch index request ∈
        (uploadBlobsToCas config (acceptingPeer blobs) blobs).2.issued ∧
      request.encode.length = batchMessageLength config.instanceName sizes := by
  have hok : (uploadBlobsToCas config (acceptingPeer blobs) blobs).1 = .ok () := by
    refine uploadBlobsToCas_eq_ok config _ blobs ?_ ?_
    · intro blob hblob
      exact exists_prepare config blobs blob hblob
        (hwell blob.1 (List.fst_mem_of_mem_zipIdx hblob))
    · refine succeeded_of_accepting config _ blobs rfl ?_
      rintro ⟨blob, position⟩ hblob resourceName
      exact ⟨_, attemptBlob_accepting blobs blob position 1 hblob resourceName⟩
  obtain ⟨loaded, hprepares, hsends, -⟩ := sends_of_uploadBlobsToCas config _ blobs hok
  have hdigests := (digests_of_prepares config _ _ _ hprepares).trans (digests_of_zipIdx blobs)
  obtain ⟨group, hgroup, rfl⟩ := (group_sizes_iff blobs loaded _ hdigests sizes).mp h
  obtain ⟨rpc, hrpc, hsent⟩ := Result.exists_of_forall₂_of_mem hsends hgroup
  cases rpc with
  | write position calls blob => cases hsent
  | batch index request =>
      obtain ⟨rfl, hloaded⟩ := hsent
      exact ⟨index, _, hrpc, length_encode_batch config.instanceName group hloaded⟩

end Fit

/-- Every batch that the default limits allow of the blobs fits four mebibytes as a message. -/
def GroupsFit (instanceName : String) (blobs : List Blob) : Prop :=
  ∀ sizes, .group sizes ∈ Packing.pack id defaultBatchUpdateBudgetBytes []
      (blobs.map Blob.size) →
    batchMessageLength instanceName sizes ≤ 4 * 1024 * 1024

/-- The batches an upload with the default limits sends fit four mebibytes, whatever the disk
and the server do. -/
def MessagesFit (casUrl instanceName : String) (blobs : List Blob) : Prop :=
  ∀ peer index request, .batch index request ∈ (uploadBlobsToCas
      (CasConfig.defaults casUrl instanceName) peer blobs).2.issued →
    request.encode.length ≤ 4 * 1024 * 1024

/-- The messages of an upload fit when no group of blobs that the budget allows together is too
long as a message; and only then, when the bytes in memory have the size of their digest. -/
theorem batch_messages_fit_iff (casUrl instanceName : String) (blobs : List Blob) :
    (GroupsFit instanceName blobs → MessagesFit casUrl instanceName blobs) ∧
      ((∀ blob ∈ blobs, blob.WellFormed) →
        (MessagesFit casUrl instanceName blobs ↔ GroupsFit instanceName blobs)) := by
  have hfits : GroupsFit instanceName blobs → MessagesFit casUrl instanceName blobs := by
    intro h peer index request hrequest
    obtain ⟨sizes, hgroup, hlength⟩ := length_of_batch_mem
      (CasConfig.defaults casUrl instanceName) peer blobs index request hrequest
    rw [hlength]
    exact h sizes hgroup
  refine ⟨hfits, fun hwell => ⟨?_, hfits⟩⟩
  intro h sizes hgroup
  obtain ⟨index, request, hrequest, hlength⟩ := exists_batch_of_group
    (CasConfig.defaults casUrl instanceName) blobs hwell sizes hgroup
  have hfit := h (acceptingPeer blobs) index request hrequest
  rw [hlength] at hfit
  exact hfit

namespace Sample

def tinyFiles : List Blob :=
  (List.range 60000).map fun n =>
    @Blob.fromBytes leadingBytes [UInt8.ofNat (n / 256), UInt8.ofNat n]

theorem tinyFiles_wellFormed : ∀ blob ∈ tinyFiles, blob.WellFormed := by
  intro blob hblob data hdata
  obtain ⟨n, -, rfl⟩ := List.mem_map.mp hblob
  cases hdata
  rfl

theorem sizes_tinyFiles : tinyFiles.map Blob.size = List.replicate 60000 2 := by
  rw [tinyFiles, List.map_map, List.eq_replicate_iff]
  refine ⟨by rw [List.length_map, List.length_range], ?_⟩
  intro size hsize
  obtain ⟨n, -, rfl⟩ := List.mem_map.mp hsize
  rfl

theorem framedLength_two : framedLength 2 = 76 := by
  have htwo : Protobuf.varintLength 2 = 1 := Protobuf.varintLength_of_lt 2 (by decide)
  have hdigest : digestLength 2 = 68 := by
    rw [digestLength, if_neg (by decide), htwo]
  have hentry : entryLength 2 = 74 := by
    rw [entryLength, hdigest, if_neg (by decide), htwo,
      Protobuf.varintLength_of_lt 68 (by decide)]
  rw [framedLength, hentry, Protobuf.varintLength_of_lt 74 (by decide)]

theorem pack_replicate_two (n : ℕ) (hpos : 0 < n) (h : n * 2 ≤ defaultBatchUpdateBudgetBytes) :
    Packing.pack id defaultBatchUpdateBudgetBytes [] (List.replicate n 2) =
      [.group (List.replicate n 2)] := by
  apply Packing.pack_eq_group
  · rw [ne_eq, List.replicate_eq_nil_iff]
    omega
  · rw [Packing.total, List.map_id, List.sum_replicate_nat]
    exact h

theorem batchMessageLength_replicate_two (n : ℕ) :
    batchMessageLength "main" (List.replicate n 2) = 6 + n * 76 := by
  have hname : instanceNameLength "main" = 6 := by
    rw [instanceNameLength, if_neg (by decide), show "main".utf8ByteSize = 4 from rfl,
      Protobuf.varintLength_of_lt 4 (by decide)]
  rw [batchMessageLength, hname, List.map_replicate, List.sum_replicate_nat, framedLength_two]

end Sample

/-- The theorem on an upload of two small files. -/
theorem batch_messages_fit_iff_sample :
    (∀ blob ∈ Sample.tinyFiles.take 2, blob.WellFormed) ∧
      MessagesFit "grpc://localhost:9092" "main" (Sample.tinyFiles.take 2) := by
  have hsizes : (Sample.tinyFiles.take 2).map Blob.size = List.replicate 2 2 := by
    rw [List.map_take, Sample.sizes_tinyFiles, List.take_replicate]
    rfl
  have hwell : ∀ blob ∈ Sample.tinyFiles.take 2, blob.WellFormed := fun blob hblob =>
    Sample.tinyFiles_wellFormed blob (List.mem_of_mem_take hblob)
  refine ⟨hwell, ((batch_messages_fit_iff "grpc://localhost:9092" "main" _).2 hwell).mpr ?_⟩
  intro sizes hgroup
  rw [hsizes, Sample.pack_replicate_two 2 (by decide) (by decide), List.mem_singleton,
    Packing.Parcel.group.injEq] at hgroup
  rw [hgroup, Sample.batchMessageLength_replicate_two]
  decide

/-- Sixty thousand small files go into one batch, whose message is longer than four
mebibytes. -/
theorem tiny_files_exceed_message :
    (∀ blob ∈ Sample.tinyFiles, blob.WellFormed) ∧ "main".utf8ByteSize ≤ 4096 ∧
      ∃ index request, .batch index request ∈ (uploadBlobsToCas
          (CasConfig.defaults "grpc://localhost:9092" "main")
          (acceptingPeer Sample.tinyFiles) Sample.tinyFiles).2.issued ∧
        ¬ request.encode.length ≤ 4 * 1024 * 1024 := by
  have hgroup : .group (List.replicate 60000 2) ∈ Packing.pack id
      (CasConfig.defaults "grpc://localhost:9092" "main").batchUpdateBudgetBytes []
      (Sample.tinyFiles.map Blob.size) := by
    rw [Sample.sizes_tinyFiles, CasConfig.defaults,
      Sample.pack_replicate_two 60000 (by decide) (by decide)]
    exact List.mem_singleton_self _
  obtain ⟨index, request, hrequest, hlength⟩ := exists_batch_of_group
    (CasConfig.defaults "grpc://localhost:9092" "main") Sample.tinyFiles
    Sample.tinyFiles_wellFormed _ hgroup
  refine ⟨Sample.tinyFiles_wellFormed, by decide, index, request, hrequest, ?_⟩
  rw [hlength, CasConfig.defaults, Sample.batchMessageLength_replicate_two]
  decide

end Cas

end RemoteFs
