import RemoteFs.Cas.BatchLoop
import Mathlib.Algebra.Order.BigOperators.Group.List

/-!
# What an upload sends

`Packed` says how the RPCs of an upload carry its blobs: in order and without loss, those
beyond the budget through ByteStream and the others in batches that are as full as the
order allows. `upload_packs_all` says that an upload whose blobs can be loaded and whose
RPCs succeed is packed, and that an upload that succeeds is packed, too, has had every
RPC accepted and an answer about every batched blob.
-/

namespace RemoteFs

namespace Cas

section Spec

variable (config : CasConfig) (peer : UploadPeer)

def Issued.entries : Issued → List (Option Reapi.Digest × BlobContents)
  | .batch _ request =>
      request.requests.map fun entry => (entry.digest, .bytes entry.data)
  | .write _ _ blob => [(some blob.digest.toReapi, blob.contents)]

def BatchUpdateBlobsRequest.payload (request : BatchUpdateBlobsRequest) : ℕ :=
  (request.requests.map fun entry => entry.data.length).sum

/-- How the RPCs of an upload carry blobs: in order and without loss, those beyond the
budget through ByteStream and the others in batches that respect the budget and are as
full as the order allows. -/
structure Packed (budget : ℕ) (blobs : List Blob) (issued : List Issued) : Prop where
  entries_eq : issued.flatMap Issued.entries =
    blobs.map fun blob => (some blob.digest.toReapi, blob.contents)
  write_size : ∀ position calls blob, .write position calls blob ∈ issued → budget < blob.size
  batch_ne_nil : ∀ index request, .batch index request ∈ issued → request.requests ≠ []
  batch_payload_le : ∀ index request, .batch index request ∈ issued → request.payload ≤ budget
  batch_entry : ∀ index request, .batch index request ∈ issued →
    ∀ entry ∈ request.requests, ∃ digest, entry.digest = some digest ∧
      digest.sizeBytes.toInt = entry.data.length ∧ entry.data.length ≤ budget
  batch_maximal : ∀ (before after : List Issued) i j request next,
    issued = before ++ .batch i request :: .batch j next :: after →
      ∃ entry rest, next.requests = entry :: rest ∧
        budget < request.payload + entry.data.length

theorem entries_of_sends (parcel : Packing.Parcel Blob) (rpc : Issued)
    (h : Sends config parcel rpc) :
    rpc.entries = parcel.items.map fun blob => (some blob.digest.toReapi, blob.contents) := by
  cases parcel with
  | single blob =>
      cases rpc with
      | batch index request => cases h
      | write position calls sent =>
          cases h
          rfl
  | group blobs =>
      cases rpc with
      | write position calls sent => cases h
      | batch index request =>
          obtain ⟨rfl, hloaded⟩ := h
          rw [Issued.entries, List.map_map]
          apply List.map_congr_left
          intro blob hblob
          exact congrArg (Prod.mk _) (hloaded blob hblob).1.symm

theorem payload_of_loaded (instanceName : String) (blobs : List Blob)
    (h : ∀ blob ∈ blobs, blob.Loaded) :
    BatchUpdateBlobsRequest.payload ⟨instanceName, blobs.map Blob.entry⟩ =
      Packing.total Blob.size blobs := by
  rw [BatchUpdateBlobsRequest.payload, Packing.total, List.map_map]
  apply congrArg List.sum
  apply List.map_congr_left
  intro blob hblob
  exact (h blob hblob).2

theorem map_entries_of_sends (parcels : List (Packing.Parcel Blob)) (issued : List Issued)
    (h : List.Forall₂ (Sends config) parcels issued) :
    issued.map Issued.entries = parcels.map fun parcel =>
      parcel.items.map fun blob => (some blob.digest.toReapi, blob.contents) := by
  induction h with
  | nil => rfl
  | cons hfirst _ ih =>
      rw [List.map_cons, List.map_cons, ih, entries_of_sends config _ _ hfirst]

theorem exists_group_of_batch (parcels : List (Packing.Parcel Blob)) (issued : List Issued)
    (h : List.Forall₂ (Sends config) parcels issued) (index : ℕ)
    (request : BatchUpdateBlobsRequest) (hbatch : .batch index request ∈ issued) :
    ∃ blobs, .group blobs ∈ parcels ∧
      request = ⟨config.instanceName, blobs.map Blob.entry⟩ ∧ ∀ blob ∈ blobs, blob.Loaded := by
  obtain ⟨parcel, hparcel, hsends⟩ := Result.exists_of_forall₂_of_mem h.flip hbatch
  cases parcel with
  | single blob => cases hsends
  | group blobs => exact ⟨blobs, hparcel, hsends⟩

theorem exists_single_of_write (parcels : List (Packing.Parcel Blob)) (issued : List Issued)
    (h : List.Forall₂ (Sends config) parcels issued) (position calls : ℕ) (blob : Blob)
    (hwrite : .write position calls blob ∈ issued) : .single blob ∈ parcels := by
  obtain ⟨parcel, hparcel, hsends⟩ := Result.exists_of_forall₂_of_mem h.flip hwrite
  cases parcel with
  | group blobs => cases hsends
  | single sent =>
      cases hsends
      exact hparcel

theorem exists_adjacent (parcels : List (Packing.Parcel Blob)) (before after : List Issued)
    (first second : Issued)
    (h : List.Forall₂ (Sends config) parcels (before ++ first :: second :: after)) :
    ∃ earlier later p q, parcels = earlier ++ p :: q :: later ∧
      Sends config p first ∧ Sends config q second := by
  induction before generalizing parcels with
  | nil =>
      cases h with
      | cons hfirst h =>
          cases h with
          | cons hsecond h => exact ⟨[], _, _, _, rfl, hfirst, hsecond⟩
  | cons rpc before ih =>
      cases h with
      | @cons parcel _ parcels _ hparcel h =>
          obtain ⟨earlier, later, p, q, rfl, hp, hq⟩ := ih parcels h
          exact ⟨parcel :: earlier, later, p, q, rfl, hp, hq⟩

theorem packed_of_sends (blobs : List Blob) (issued : List Issued)
    (h : List.Forall₂ (Sends config)
      (Packing.pack Blob.size config.batchUpdateBudgetBytes [] blobs) issued) :
    Packed config.batchUpdateBudgetBytes blobs issued where
  entries_eq := by
    rw [List.flatMap_def, map_entries_of_sends config _ _ h, ← List.flatMap_def,
      ← List.map_flatMap, Packing.flatMap_items_pack, List.nil_append]
  write_size := by
    intro position calls blob hwrite
    exact Packing.single_of_mem_pack _ _ _ _
      (exists_single_of_write config _ _ h position calls blob hwrite)
  batch_ne_nil := by
    intro index request hbatch
    obtain ⟨group, hgroup, rfl, -⟩ := exists_group_of_batch config _ _ h index request hbatch
    simpa using (Packing.group_of_mem_pack _ _ _ _ hgroup).1
  batch_payload_le := by
    intro index request hbatch
    obtain ⟨group, hgroup, rfl, hloaded⟩ :=
      exists_group_of_batch config _ _ h index request hbatch
    rw [payload_of_loaded config.instanceName group hloaded]
    exact (Packing.group_of_mem_pack _ _ _ _ hgroup).2
  batch_entry := by
    intro index request hbatch entry hentry
    obtain ⟨group, hgroup, rfl, hloaded⟩ :=
      exists_group_of_batch config _ _ h index request hbatch
    obtain ⟨blob, hblob, rfl⟩ := List.mem_map.mp hentry
    have hlength := (hloaded blob hblob).2
    refine ⟨blob.digest.toReapi, rfl, ?_, ?_⟩
    · rw [Blob.entry, hlength]
      exact (Digest.toNatClampNeg_ofNat _ blob.digest.size_le).1
    · refine Nat.le_trans ?_ (Packing.group_of_mem_pack _ _ _ _ hgroup).2
      rw [Blob.entry, hlength]
      exact List.single_le_sum (fun _ _ => Nat.zero_le _) _ (List.mem_map_of_mem hblob)
  batch_maximal := by
    intro before after i j request next hissued
    rw [hissued] at h
    obtain ⟨earlier, later, p, q, hparcels, hp, hq⟩ := exists_adjacent config _ _ _ _ _ h
    cases p with
    | single blob => cases hp
    | group items =>
        cases q with
        | single blob => cases hq
        | group items' =>
            obtain ⟨rfl, hloaded⟩ := hp
            obtain ⟨rfl, hloaded'⟩ := hq
            obtain ⟨blob, rest, rfl, hfull⟩ := Packing.pack_maximal _ _ _ _ _ _ _ _ hparcels
            refine ⟨blob.entry, rest.map Blob.entry, rfl, ?_⟩
            rw [payload_of_loaded config.instanceName items hloaded, Blob.entry,
              (hloaded' blob List.mem_cons_self).2]
            exact hfull

theorem foldlM_addUploaded (blobs : List Blob) (total bytes : ℕ)
    (h : blobs.foldlM addUploaded total = .ok bytes) :
    bytes = total + (blobs.map Blob.size).sum := by
  induction blobs generalizing total with
  | nil =>
      cases h
      rfl
  | cons blob blobs ih =>
      rw [List.foldlM_cons, Result.bind_eq_ok_iff] at h
      obtain ⟨next, hnext, hrest⟩ := h
      rw [addUploaded, Result.bind_eq_ok_iff] at hnext
      obtain ⟨size, hsize, hnext⟩ := hnext
      rw [digestSizeU64, if_pos (blob.digest.size_le.trans (by decide))] at hsize
      cases hsize
      split at hnext
      · cases hnext
        rw [ih _ hrest, List.map_cons, List.sum_cons, Nat.add_assoc]
        rfl
      · cases hnext

theorem exists_batch_of_mem (blobs : List Blob) (issued : List Issued)
    (h : List.Forall₂ (Sends config)
      (Packing.pack Blob.size config.batchUpdateBudgetBytes [] blobs) issued)
    (blob : Blob) (hblob : blob ∈ blobs) (hsize : blob.size ≤ config.batchUpdateBudgetBytes) :
    ∃ index request, .batch index request ∈ issued ∧ blob.entry ∈ request.requests := by
  have hitems : blob ∈ (Packing.pack Blob.size config.batchUpdateBudgetBytes [] blobs).flatMap
      Packing.Parcel.items := by
    rw [Packing.flatMap_items_pack, List.nil_append]
    exact hblob
  obtain ⟨parcel, hparcel, hitem⟩ := List.mem_flatMap.mp hitems
  obtain ⟨rpc, hrpc, hsends⟩ := Result.exists_of_forall₂_of_mem h hparcel
  cases parcel with
  | single other =>
      rw [List.mem_singleton.mp hitem] at hsize
      exact absurd (Packing.single_of_mem_pack _ _ _ _ hparcel) (Nat.not_lt.mpr hsize)
  | group group =>
      cases rpc with
      | write position calls sent => cases hsends
      | batch index request =>
          obtain ⟨rfl, -⟩ := hsends
          exact ⟨index, _, hrpc, List.mem_map_of_mem hitem⟩

/-- What an upload that succeeds has done: its RPCs pack the blobs as they were loaded, each
was accepted, every batched blob had an answer, and the statistics count all blobs. -/
structure Uploaded (blobs : List Blob) (stats : UploadStats) (issued : List Issued) :
    Prop where
  issued_eq : issued = (uploadBlobsToCas config peer blobs).2.issued
  packed : ∃ loaded,
    List.Forall₂ (fun blob sent => prepare config peer blob = .ok sent) blobs.zipIdx loaded ∧
      Packed config.batchUpdateBudgetBytes loaded issued
  succeeded : ∀ rpc ∈ issued, rpc.Succeeded config peer
  answered : ∀ blob ∈ blobs, blob.size ≤ config.batchUpdateBudgetBytes →
    ∃ index request responses, .batch index request ∈ issued ∧
      retryRpc config .batchUpdateBlobs (peer.batchUpdateBlobs index request) = .ok responses ∧
      Accepted responses (some blob.digest.toReapi)
  uploadedBlobs : stats.uploadedBlobs = blobs.length
  bytesUploaded : stats.bytesUploaded = (blobs.map Blob.size).sum

theorem prepared_unique (blobs : List (Blob × ℕ)) (loaded all : List Blob)
    (hloaded : List.Forall₂ (fun blob sent => prepare config peer blob = .ok sent) blobs loaded)
    (hall : List.Forall₂ (fun blob sent => prepare config peer blob = .ok sent) blobs all) :
    loaded = all := by
  refine List.right_unique_forall₂' ?_ hloaded hall
  intro blob left right hleft hright
  exact Except.ok.inj (hleft.symm.trans hright)

/-- An upload to CAS that succeeds has sent the parcels of the loaded blobs. -/
theorem sends_of_uploadBlobsToCas (blobs : List Blob)
    (h : (uploadBlobsToCas config peer blobs).1 = .ok ()) :
    ∃ loaded,
      List.Forall₂ (fun blob sent => prepare config peer blob = .ok sent) blobs.zipIdx loaded ∧
      List.Forall₂ (Sends config)
        (Packing.pack Blob.size config.batchUpdateBudgetBytes [] loaded)
        (uploadBlobsToCas config peer blobs).2.issued ∧
      ∀ rpc ∈ (uploadBlobsToCas config peer blobs).2.issued, rpc.Succeeded config peer := by
  obtain ⟨all, sent, houtcome⟩ := uploadBlobsToCas_spec config peer blobs
  obtain ⟨-, hprepares, hsent, hsucceeded⟩ | ⟨⟨e, he⟩, -⟩ := houtcome.verdict
  · exact ⟨all, hprepares, hsent ▸ houtcome.sends, hsucceeded⟩
  · rw [h] at he
    cases he

theorem uploaded_of_ok (blobs : List Blob) (stats : UploadStats) (issued : List Issued)
    (h : uploadBlobs config peer blobs = (.ok stats, issued)) :
    Uploaded config peer blobs stats issued := by
  unfold uploadBlobs at h
  split at h
  · cases h
  · next bytes hbytes =>
      simp only [Prod.mk.injEq, Result.map_eq_ok_iff, withContext_eq_ok_iff] at h
      obtain ⟨⟨_, hok, rfl⟩, rfl⟩ := h
      obtain ⟨loaded, hprepares, hsends, hsucceeded⟩ :=
        sends_of_uploadBlobsToCas config peer blobs hok
      refine ⟨rfl, ⟨loaded, hprepares, packed_of_sends config loaded _ hsends⟩, hsucceeded, ?_,
        rfl, (foldlM_addUploaded blobs 0 bytes hbytes).trans (Nat.zero_add _)⟩
      intro blob hblob hsize
      obtain ⟨position, hposition⟩ := List.mem_iff_getElem?.mp hblob
      obtain ⟨sent, hsent, hprepare⟩ := Result.exists_of_forall₂_of_mem hprepares
        (List.mk_mem_zipIdx_iff_getElem?.mpr hposition)
      have hdigest : sent.digest = blob.digest := prepare_digest config peer _ _ hprepare
      obtain ⟨index, request, hbatch, hentry⟩ := exists_batch_of_mem config loaded _ hsends sent
        hsent (by rw [Blob.size, hdigest]; exact hsize)
      obtain ⟨responses, hresponses, haccepted⟩ := hsucceeded _ hbatch
      refine ⟨index, request, responses, hbatch, hresponses, ?_⟩
      rw [← hdigest]
      exact haccepted sent.entry hentry

/-- An upload to CAS succeeds when its blobs can be loaded and every RPC it issued
succeeded. -/
theorem uploadBlobsToCas_eq_ok (blobs : List Blob)
    (hprepare : ∀ blob ∈ blobs.zipIdx, ∃ sent, prepare config peer blob = .ok sent)
    (hsucceeded : ∀ rpc ∈ (uploadBlobsToCas config peer blobs).2.issued,
      rpc.Succeeded config peer) :
    (uploadBlobsToCas config peer blobs).1 = .ok () := by
  obtain ⟨all, sent, houtcome⟩ := uploadBlobsToCas_spec config peer blobs
  obtain ⟨hok, -⟩ | ⟨-, ⟨blob, hblob, e, he⟩ | ⟨rpc, hrpc, hfailed⟩⟩ := houtcome.verdict
  · exact hok
  · obtain ⟨sent', hsent'⟩ := hprepare blob hblob
    rw [he] at hsent'
    cases hsent'
  · exact absurd (hsucceeded rpc hrpc) hfailed

section Accepting

/-- The answer of a server that accepts every blob of every batch. -/
def acceptAll (_index : ℕ) (request : BatchUpdateBlobsRequest) (_attempt : ℕ) :
    Except AttemptFailure (List BatchUpdateResponse) :=
  .ok (request.requests.map fun entry => ⟨entry.digest, none⟩)

theorem batch_succeeded (hpeer : peer.batchUpdateBlobs = acceptAll) (index : ℕ)
    (request : BatchUpdateBlobsRequest) : (Issued.batch index request).Succeeded config peer := by
  refine ⟨_, retryRpc_of_ok (by rw [hpeer]; rfl), ?_⟩
  intro entry hentry
  have hsome : ((request.requests.map fun entry =>
      (⟨entry.digest, none⟩ : BatchUpdateResponse)).find? fun response =>
        response.digest = entry.digest).isSome = true := by
    rw [List.find?_isSome]
    exact ⟨⟨entry.digest, none⟩, List.mem_map_of_mem hentry, by simp⟩
  obtain ⟨response, hresponse⟩ := Option.isSome_iff_exists.mp hsome
  refine ⟨response, hresponse, ?_⟩
  obtain ⟨other, -, rfl⟩ := List.mem_map.mp (List.mem_of_find?_eq_some hresponse)
  intro status hstatus
  cases hstatus

theorem succeeded_of_accepting (blobs : List Blob) (hpeer : peer.batchUpdateBlobs = acceptAll)
    (hwrite : ∀ blob ∈ blobs.zipIdx, ∀ resourceName, ∃ written,
      (attemptBlob resourceName blob.1 (peer.write blob.2 1)).result = .ok written) :
    ∀ rpc ∈ (uploadBlobsToCas config peer blobs).2.issued, rpc.Succeeded config peer := by
  intro rpc hrpc
  cases rpc with
  | batch index request => exact batch_succeeded config peer hpeer index request
  | write position calls blob =>
      rcases write_of_uploadLoop config _ _ _ _ _ _ hrpc with hnone | hmem
      · cases hnone
      · exact bytestreamWriteBlob_of_ok config _ _ blob calls (hwrite (blob, position) hmem)

end Accepting

/-- Packing loses and duplicates nothing. When the blobs can be loaded and the RPCs that
are issued succeed, the upload succeeds and its RPCs pack the loaded blobs; and an upload
that succeeds has packed the blobs, had every RPC accepted and every batched blob answered,
and counts the blobs and their sizes. -/
theorem upload_packs_all (blobs : List Blob) :
    (∀ loaded, List.Forall₂ (fun blob sent => prepare config peer blob = .ok sent)
        blobs.zipIdx loaded →
      (∀ rpc ∈ (uploadBlobsToCas config peer blobs).2.issued, rpc.Succeeded config peer) →
        (uploadBlobsToCas config peer blobs).1 = .ok () ∧
          Packed config.batchUpdateBudgetBytes loaded
            (uploadBlobsToCas config peer blobs).2.issued) ∧
    ∀ stats issued, uploadBlobs config peer blobs = (.ok stats, issued) →
      Uploaded config peer blobs stats issued := by
  refine ⟨?_, uploaded_of_ok config peer blobs⟩
  intro loaded hloaded hsucceeded
  have hok : (uploadBlobsToCas config peer blobs).1 = .ok () := by
    refine uploadBlobsToCas_eq_ok config peer blobs ?_ hsucceeded
    intro blob hblob
    obtain ⟨sent, -, hsent⟩ := Result.exists_of_forall₂_of_mem hloaded hblob
    exact ⟨sent, hsent⟩
  obtain ⟨all, hprepares, hsends, -⟩ := sends_of_uploadBlobsToCas config peer blobs hok
  obtain rfl := prepared_unique config peer _ _ _ hloaded hprepares
  exact ⟨hok, packed_of_sends config loaded _ hsends⟩

end Spec

namespace Sample

/-- A stand-in for SHA-256: the first bytes of the content. -/
@[reducible] def leadingBytes : Sha256 where
  digest bytes := Vector.ofFn fun i => bytes.getD i.val 0

def smallBatches : CasConfig :=
  { config with batchUpdateBudgetBytes := 4 }

/-- Contents below, at and beyond the budget of small batches. -/
def mixedContents : List Bytes :=
  [[1, 2], [3, 4], [5], [6, 7, 8, 9, 10], [11, 12, 13, 14, 15, 16], []]

def mixedBlobs : List Blob :=
  mixedContents.zipIdx.map fun content =>
    if content.2 % 2 = 0 then
      .fromFilePath (@Digest.forBytes leadingBytes content.1) [.utf8 "", .utf8 "content"]
    else @Blob.fromBytes leadingBytes content.1

/-- The blobs as they are sent: the files within the budget are loaded. -/
def mixedLoaded : List Blob :=
  mixedBlobs.zipIdx.map fun blob =>
    if blob.1.size ≤ 4 then ⟨blob.1.digest, .bytes (mixedContents.getD blob.2 [])⟩ else blob.1

/-- A disk that holds the contents, and a server that accepts everything. -/
def mixedPeer : UploadPeer where
  read position _ := .ok (mixedContents.getD position [])
  batchUpdateBlobs := acceptAll
  write position _ :=
    let content := mixedContents.getD position []
    let outcome : WriteOutcome := .ok (Int64.ofNat content.length)
    { outcome := some outcome
      reads := .ok [.ok content]
      schedule :=
        [.openFile, .read, .send, .consume, .read, .send, .consume, .terminate outcome] }
  newV4 := newV4

theorem prepares_mixedBlobs :
    List.Forall₂ (fun blob sent => prepare smallBatches mixedPeer blob = .ok sent)
      mixedBlobs.zipIdx mixedLoaded :=
  .cons rfl (.cons rfl (.cons rfl (.cons rfl (.cons rfl (.cons rfl .nil)))))

theorem writes_mixedBlobs (blob : Blob × ℕ) (hblob : blob ∈ mixedBlobs.zipIdx)
    (resourceName : String) :
    ∃ written,
      (attemptBlob resourceName blob.1 (mixedPeer.write blob.2 1)).result = .ok written := by
  have hblobs : mixedBlobs.zipIdx = [(mixedBlobs[0], 0), (mixedBlobs[1], 1), (mixedBlobs[2], 2),
      (mixedBlobs[3], 3), (mixedBlobs[4], 4), (mixedBlobs[5], 5)] := rfl
  rw [hblobs] at hblob
  simp only [List.mem_cons, List.not_mem_nil, or_false] at hblob
  rcases hblob with rfl | rfl | rfl | rfl | rfl | rfl
  all_goals exact ⟨_, rfl⟩

end Sample

/-- The theorem on an upload of six blobs, with a group that fills the budget, two blobs beyond it
and an empty one. -/
theorem upload_packs_all_sample :
    ∃ issued, uploadBlobs Sample.smallBatches Sample.mixedPeer Sample.mixedBlobs =
        (.ok ⟨6, 16⟩, issued) ∧
      (issued.map fun rpc => rpc.entries.map Prod.snd) =
        [[.bytes [1, 2], .bytes [3, 4]], [.bytes [5]], [.bytes [6, 7, 8, 9, 10]],
          [.filePath [.utf8 "", .utf8 "content"]], [.bytes []]] ∧
      Packed 4 Sample.mixedLoaded issued ∧
      Uploaded Sample.smallBatches Sample.mixedPeer Sample.mixedBlobs ⟨6, 16⟩ issued := by
  have hsucceeded := succeeded_of_accepting Sample.smallBatches Sample.mixedPeer
    Sample.mixedBlobs rfl Sample.writes_mixedBlobs
  obtain ⟨hok, hpacked⟩ := (upload_packs_all Sample.smallBatches Sample.mixedPeer
    Sample.mixedBlobs).1 _ Sample.prepares_mixedBlobs hsucceeded
  have hupload : uploadBlobs Sample.smallBatches Sample.mixedPeer Sample.mixedBlobs =
      (.ok ⟨6, 16⟩, (uploadBlobsToCas Sample.smallBatches Sample.mixedPeer
        Sample.mixedBlobs).2.issued) := by
    have hbytes : Sample.mixedBlobs.foldlM addUploaded 0 = .ok 16 := rfl
    rw [uploadBlobs, hbytes]
    dsimp only
    rw [hok]
    rfl
  refine ⟨_, hupload, ?_, hpacked, (upload_packs_all Sample.smallBatches Sample.mixedPeer
    Sample.mixedBlobs).2 _ _ hupload⟩
  obtain ⟨loaded, hprepares, hsends, -⟩ := sends_of_uploadBlobsToCas _ _ _ hok
  obtain rfl := prepared_unique _ _ _ _ _ Sample.prepares_mixedBlobs hprepares
  have hentries := congrArg (List.map (List.map Prod.snd)) (map_entries_of_sends _ _ _ hsends)
  rw [List.map_map] at hentries
  exact hentries.trans rfl

end Cas

end RemoteFs
