import RemoteFs.Cas.BatchUpdate
import RemoteFs.Cas.DownloadSpec
import RemoteFs.Library.Packing

/-!
# The loop of an upload

The blobs of an upload are packed by their sizes: the RPCs an upload issues are the
parcels of `Packing.pack`, a batch for each group and a write for each blob alone.
`Uploading` is the invariant of the loop. It says that what was issued, followed by the
parcels of the open batch and of any blobs to come, are the parcels of the blobs seen so
far and those to come; a failed upload has issued the beginning of the parcels.
-/

namespace RemoteFs

namespace Cas

def Blob.data (blob : Blob) : Bytes :=
  match blob.contents with
  | .bytes data => data
  | .filePath _ => []

def Blob.entry (blob : Blob) : BatchUpdateEntry where
  digest := some blob.digest.toReapi
  data := blob.data
  compressor := 0

def Blob.Loaded (blob : Blob) : Prop :=
  blob.contents = .bytes blob.data ∧ blob.data.length = blob.digest.sizeBytes

/-- The weight of a blob in a batch. -/
def Blob.size (blob : Blob) : ℕ :=
  blob.digest.sizeBytes

/-- A response list answers about a digest, and its first answer is no error. -/
def Accepted (responses : List BatchUpdateResponse) (digest : Option Reapi.Digest) : Prop :=
  ∃ response, (responses.find? fun response => response.digest = digest) = some response ∧
    ∀ status, response.status = some status → status.code = 0

section Spec

variable (config : CasConfig) (peer : UploadPeer)

/-- The RPC was answered, and the answer accepts what was sent. -/
def Issued.Succeeded : Issued → Prop
  | .batch index request => ∃ responses,
      retryRpc config .batchUpdateBlobs (peer.batchUpdateBlobs index request) =
        .ok responses ∧ ∀ entry ∈ request.requests, Accepted responses entry.digest
  | .write position calls blob =>
      (bytestreamWriteBlob config peer.newV4 (peer.write position) blob calls).result = .ok ()

/-- A blob as it is sent: loaded, unless it is too large for a batch. -/
def prepare (blob : Blob × ℕ) : Except CasError Blob :=
  if config.batchUpdateBudgetBytes < blob.1.size then .ok blob.1
  else loadBlobAsBytes (peer.read blob.2) blob.1 blob.1.size

/-- The RPC that sends a parcel. -/
def Sends : Packing.Parcel Blob → Issued → Prop
  | .group blobs, .batch _ request =>
      request = ⟨config.instanceName, blobs.map Blob.entry⟩ ∧ ∀ blob ∈ blobs, blob.Loaded
  | .single blob, .write _ _ sent => sent = blob
  | _, _ => False

theorem loadBlobAsBytes_eq_ok (read : PathBuf → Except IoError Bytes) (blob loaded : Blob)
    (h : loadBlobAsBytes read blob blob.size = .ok loaded) :
    loaded.Loaded ∧ loaded.digest = blob.digest := by
  unfold loadBlobAsBytes at h
  split at h
  · split at h
    · cases h
    · next data hcontents hlength =>
        cases h
        exact ⟨⟨rfl, not_not.mp hlength⟩, rfl⟩
  · next path hcontents =>
      obtain ⟨data, -, h⟩ := (Result.bind_eq_ok_iff _ _ _).mp h
      split at h
      · cases h
      · next hlength =>
          cases h
          exact ⟨⟨rfl, not_not.mp hlength⟩, rfl⟩

theorem mapM_batchUpdateRequest (batch : List Blob) (h : ∀ blob ∈ batch, blob.Loaded) :
    batch.mapM batchUpdateRequest = .ok (batch.map Blob.entry) := by
  rw [Result.mapM_eq_ok_iff, List.forall₂_map_right_iff, List.forall₂_same]
  intro blob hblob
  rw [batchUpdateRequest, (h blob hblob).1]
  rfl

theorem checkResponse_eq_ok_iff (responses : List BatchUpdateResponse) (blob : Blob) :
    checkResponse responses blob = .ok () ↔ Accepted responses blob.entry.digest := by
  have hentry : blob.entry.digest = some blob.digest.toReapi := rfl
  unfold checkResponse Accepted
  rw [hentry]
  split
  · next hnone => simp [hnone]
  · next response hfound =>
      simp only [hfound, Option.some.injEq, exists_eq_left']
      split
      · next status hstatus =>
          obtain ⟨hsome, hcode⟩ := Option.filter_eq_some_iff.mp hstatus
          simp only [reduceCtorEq, false_iff, not_forall]
          exact ⟨status, hsome, by simpa using hcode⟩
      · next hstatus =>
          rw [Option.filter_eq_none_iff] at hstatus
          simpa using hstatus

/-- What sending a batch does: one RPC, whose success is the success of the call. -/
theorem uploadBatchToCas_spec (index : ℕ) (batch : List Blob) (s : UploadState)
    (h : ∀ blob ∈ batch, blob.Loaded) :
    (uploadBatchToCas config peer index batch s).2 =
        { s with issued := s.issued ++
            [.batch index ⟨config.instanceName, batch.map Blob.entry⟩] } ∧
      ((uploadBatchToCas config peer index batch s).1 = .ok () ↔
        (Issued.batch index ⟨config.instanceName, batch.map Blob.entry⟩).Succeeded
          config peer) := by
  unfold uploadBatchToCas
  rw [mapM_batchUpdateRequest batch h]
  refine ⟨rfl, ?_⟩
  simp only [Result.bind_eq_ok_iff, withContext_eq_ok_iff, Issued.Succeeded]
  apply exists_congr
  intro responses
  rw [Result.forM_eq_ok_iff, List.forall_mem_map]
  simp only [← checkResponse_eq_ok_iff]

/-- What the loop has done when it has handled `done` without a failure. -/
structure Uploading (done : List (Blob × ℕ)) (prepared : List Blob)
    (parcels : List (Packing.Parcel Blob)) (s : UploadState) : Prop where
  prepares : List.Forall₂ (fun blob sent => prepare config peer blob = .ok sent) done prepared
  sends : List.Forall₂ (Sends config) parcels s.issued
  loaded : ∀ blob ∈ s.batch.blobs, blob.Loaded
  bytes : s.batch.bytes = Packing.total Blob.size s.batch.blobs
  packed : ∀ rest, parcels ++
      Packing.pack Blob.size config.batchUpdateBudgetBytes s.batch.blobs rest =
    Packing.pack Blob.size config.batchUpdateBudgetBytes [] (prepared ++ rest)
  succeeded : ∀ rpc ∈ s.issued, rpc.Succeeded config peer

theorem uploading_start : Uploading config peer [] [] [] .start where
  prepares := .nil
  sends := .nil
  loaded := fun _ h => absurd h List.not_mem_nil
  bytes := rfl
  packed := fun _ => rfl
  succeeded := fun _ h => absurd h List.not_mem_nil

/-- What sending the open batch does: it closes the group, and fails exactly when an RPC
it issued does. -/
structure Flushed (s : UploadState) (result : Except CasError Unit) (s' : UploadState)
    (issued : List Issued) : Prop where
  blobs : s'.batch.blobs = []
  bytes : s'.batch.bytes = 0
  calls : s'.calls = s.calls
  issued_eq : s'.issued = s.issued ++ issued
  sends : List.Forall₂ (Sends config) (Packing.close s.batch.blobs) issued
  ok_iff : result = .ok () ↔ ∀ rpc ∈ issued, rpc.Succeeded config peer

theorem flushBatchUpdate_spec (s : UploadState) (hloaded : ∀ blob ∈ s.batch.blobs, blob.Loaded)
    (hbytes : s.batch.bytes = Packing.total Blob.size s.batch.blobs) :
    ∃ issued, Flushed config peer s (flushBatchUpdate config peer s).1
      (flushBatchUpdate config peer s).2 issued := by
  unfold flushBatchUpdate BatchUpdateState.isEmpty
  cases hblobs : s.batch.blobs with
  | nil =>
      rw [hblobs] at hbytes
      refine ⟨[], hblobs, hbytes, rfl, (List.append_nil _).symm, ?_, ?_⟩
      · rw [hblobs]
        exact .nil
      · simp
  | cons first blobs =>
      rw [← hblobs]
      obtain ⟨hstate, hok⟩ := uploadBatchToCas_spec config peer s.batch.nextIndex s.batch.blobs
        { s with batch := s.batch.take.2 } hloaded
      have hnonempty : s.batch.blobs.isEmpty = false := by simp [hblobs]
      rw [hnonempty, if_neg Bool.false_ne_true]
      simp only [BatchUpdateState.take] at hstate hok ⊢
      refine ⟨[.batch s.batch.nextIndex ⟨config.instanceName, s.batch.blobs.map Blob.entry⟩],
        ?_, ?_, ?_, ?_, ?_, ?_⟩
      · rw [hstate]
      · rw [hstate]
      · rw [hstate]
      · rw [hstate]
      · rw [hblobs] at hloaded ⊢
        exact .cons ⟨rfl, hloaded⟩ .nil
      · rw [withContext_eq_ok_iff, hok]
        simp

/-- What an upload has done when it failed on a blob: it has sent the beginning of the
parcels, and the blob could not be loaded or an RPC failed. -/
def Stopped (prepared : List Blob) (blob : Blob × ℕ) (s : UploadState) : Prop :=
  ∃ next sent, next.digest = blob.1.digest ∧ List.Forall₂ (Sends config) sent s.issued ∧
    (∀ rest, sent <+: Packing.pack Blob.size config.batchUpdateBudgetBytes []
      (prepared ++ next :: rest)) ∧
    ((∃ e, prepare config peer blob = .error e) ∨
      ∃ rpc ∈ s.issued, ¬ rpc.Succeeded config peer)

/-- What one turn of the loop does: it has handled the blob, or the upload has failed on
it. -/
def Handled (done : List (Blob × ℕ)) (prepared : List Blob) (blob : Blob × ℕ)
    (turn : Except CasError Unit × UploadState) : Prop :=
  (turn.1 = .ok () ∧ ∃ next parcels,
      Uploading config peer (done ++ [blob]) (prepared ++ [next]) parcels turn.2) ∨
    (∃ e, turn.1 = .error e) ∧ Stopped config peer prepared blob turn.2

section Next

variable {done : List (Blob × ℕ)} {prepared : List Blob}
  {parcels : List (Packing.Parcel Blob)} {s : UploadState}

/-- The parcels of the open batch and of the blobs to come, when a blob comes next. -/
theorem Uploading.packed_cons (h : Uploading config peer done prepared parcels s)
    (next : Blob) (rest : List Blob) (after : List (Packing.Parcel Blob))
    (hpack : Packing.pack Blob.size config.batchUpdateBudgetBytes s.batch.blobs
      (next :: rest) = after) :
    parcels ++ after =
      Packing.pack Blob.size config.batchUpdateBudgetBytes [] (prepared ++ next :: rest) := by
  rw [← hpack]
  exact h.packed (next :: rest)

theorem Uploading.sends_flushed (h : Uploading config peer done prepared parcels s)
    {result : Except CasError Unit} {s' : UploadState} {issued : List Issued}
    (hflushed : Flushed config peer s result s' issued) :
    List.Forall₂ (Sends config) (parcels ++ Packing.close s.batch.blobs) s'.issued := by
  rw [hflushed.issued_eq]
  exact List.rel_append h.sends hflushed.sends

theorem Uploading.succeeded_flushed (h : Uploading config peer done prepared parcels s)
    {s' : UploadState} {issued : List Issued}
    (hflushed : Flushed config peer s (.ok ()) s' issued) :
    ∀ rpc ∈ s'.issued, rpc.Succeeded config peer := by
  rw [hflushed.issued_eq]
  intro rpc hrpc
  rcases List.mem_append.mp hrpc with hold | hnew
  · exact h.succeeded rpc hold
  · exact hflushed.ok_iff.mp rfl rpc hnew

theorem exists_failed_of_flushed {e : CasError} {s' : UploadState} {issued : List Issued}
    (hflushed : Flushed config peer s (.error e) s' issued) :
    ∃ rpc ∈ s'.issued, ¬ rpc.Succeeded config peer := by
  have hfailed : ¬ ∀ rpc ∈ issued, rpc.Succeeded config peer := by
    rw [← hflushed.ok_iff]
    exact fun h => by cases h
  simp only [not_forall] at hfailed
  obtain ⟨rpc, hrpc, hfailed⟩ := hfailed
  rw [hflushed.issued_eq]
  exact ⟨rpc, List.mem_append_right _ hrpc, hfailed⟩

theorem Uploading.stopped_flushed (h : Uploading config peer done prepared parcels s)
    {e : CasError} {s' : UploadState} {issued : List Issued}
    (hflushed : Flushed config peer s (.error e) s' issued) (blob : Blob × ℕ) (next : Blob)
    (hdigest : next.digest = blob.1.digest) (after : List Blob → List (Packing.Parcel Blob))
    (hpack : ∀ rest, parcels ++ (Packing.close s.batch.blobs ++ after rest) =
      Packing.pack Blob.size config.batchUpdateBudgetBytes [] (prepared ++ next :: rest)) :
    Stopped config peer prepared blob s' := by
  refine ⟨next, _, hdigest, h.sends_flushed config peer hflushed, ?_,
    .inr (exists_failed_of_flushed config peer hflushed)⟩
  intro rest
  rw [← hpack rest, ← List.append_assoc]
  exact ⟨_, rfl⟩

theorem uploadNext_oversized (h : Uploading config peer done prepared parcels s)
    (blob : Blob × ℕ) (hsize : config.batchUpdateBudgetBytes < blob.1.size) :
    Handled config peer done prepared blob (uploadNext config peer blob.2 blob.1 s) := by
  have hbudget : blob.1.digest.sizeBytes > config.batchUpdateBudgetBytes := hsize
  have hprepare : prepare config peer blob = .ok blob.1 := if_pos hsize
  have hpack := fun rest => h.packed_cons config peer blob.1 rest _
    (Packing.pack_of_heavy Blob.size config.batchUpdateBudgetBytes s.batch.blobs blob.1 rest
      hsize)
  obtain ⟨issued, hflushed⟩ := flushBatchUpdate_spec config peer s h.loaded h.bytes
  rw [uploadNext, digestSizeUsize_eq]
  dsimp only
  rw [if_pos hbudget]
  generalize flushBatchUpdate config peer s = flush at hflushed ⊢
  obtain ⟨_ | _, s'⟩ := flush
  · next e =>
      exact .inr ⟨⟨e, rfl⟩,
        h.stopped_flushed config peer hflushed blob blob.1 rfl _ hpack⟩
  · next done' =>
      have hsends : List.Forall₂ (Sends config)
          (parcels ++ Packing.close s.batch.blobs ++ [.single blob.1])
          (s'.issued ++ [.write blob.2 s'.calls blob.1]) :=
        List.rel_append (h.sends_flushed config peer hflushed) (.cons rfl .nil)
      dsimp only [uploadOversizedBlob]
      cases hresult : (bytestreamWriteBlob config peer.newV4 (peer.write blob.2) blob.1
          s'.calls).result with
      | error e =>
          refine .inr ⟨⟨_, rfl⟩, blob.1, _, rfl, hsends, ?_, .inr ⟨_,
            List.mem_append_right _ List.mem_cons_self, ?_⟩⟩
          · intro rest
            rw [← hpack rest]
            exact ⟨Packing.pack Blob.size config.batchUpdateBudgetBytes [] rest, by simp⟩
          · rw [Issued.Succeeded, hresult]
            exact fun hok => by cases hok
      | ok written =>
          refine .inl ⟨rfl, blob.1, _, ⟨?_, hsends, ?_, ?_, ?_, ?_⟩⟩
          · exact List.rel_append h.prepares (.cons hprepare .nil)
          · rw [hflushed.blobs]
            exact fun _ hnone => absurd hnone List.not_mem_nil
          · rw [hflushed.blobs, hflushed.bytes]
            rfl
          · intro rest
            rw [hflushed.blobs, List.append_assoc prepared, List.singleton_append, ← hpack rest]
            simp
          · intro rpc hrpc
            rcases List.mem_append.mp hrpc with hold | hnew
            · exact h.succeeded_flushed config peer hflushed rpc hold
            · rw [List.mem_singleton.mp hnew]
              exact hresult

theorem wouldExceedBudget_iff (h : Uploading config peer done prepared parcels s)
    (size : ℕ) :
    s.batch.wouldExceedBudget size config.batchUpdateBudgetBytes = true ↔
      s.batch.blobs ≠ [] ∧
        config.batchUpdateBudgetBytes < Packing.total Blob.size s.batch.blobs + size := by
  simp [BatchUpdateState.wouldExceedBudget, BatchUpdateState.isEmpty, h.bytes]

theorem uploading_push (blob : Blob × ℕ) (loaded : Blob) (s' : UploadState)
    (hprepares : List.Forall₂ (fun blob sent => prepare config peer blob = .ok sent) done
      prepared)
    (hprepare : prepare config peer blob = .ok loaded) (hloaded : loaded.Loaded)
    (hsends : List.Forall₂ (Sends config) parcels s'.issued)
    (hbatch : ∀ blob ∈ s'.batch.blobs, blob.Loaded)
    (hbytes : s'.batch.bytes = Packing.total Blob.size s'.batch.blobs)
    (hpacked : ∀ rest, parcels ++ Packing.pack Blob.size config.batchUpdateBudgetBytes
        (s'.batch.blobs ++ [loaded]) rest =
      Packing.pack Blob.size config.batchUpdateBudgetBytes [] (prepared ++ loaded :: rest))
    (hsucceeded : ∀ rpc ∈ s'.issued, rpc.Succeeded config peer) :
    Uploading config peer (done ++ [blob]) (prepared ++ [loaded]) parcels
      { s' with batch := s'.batch.push loaded loaded.size } where
  prepares := List.rel_append hprepares (.cons hprepare .nil)
  sends := hsends
  loaded := by
    intro other hother
    rcases List.mem_append.mp hother with hold | hnew
    · exact hbatch other hold
    · rw [List.mem_singleton.mp hnew]
      exact hloaded
  bytes := by
    dsimp only [BatchUpdateState.push]
    rw [Packing.total_append_singleton, hbytes]
  packed := by
    intro rest
    rw [List.append_assoc, List.singleton_append]
    exact hpacked rest
  succeeded := hsucceeded

theorem uploadNext_small (h : Uploading config peer done prepared parcels s)
    (blob : Blob × ℕ) (hsize : ¬ config.batchUpdateBudgetBytes < blob.1.size) :
    Handled config peer done prepared blob (uploadNext config peer blob.2 blob.1 s) := by
  have hprepare : prepare config peer blob =
      loadBlobAsBytes (peer.read blob.2) blob.1 blob.1.size := if_neg hsize
  have hbudget : ¬ blob.1.digest.sizeBytes > config.batchUpdateBudgetBytes := hsize
  rw [uploadNext, digestSizeUsize_eq]
  dsimp only
  rw [if_neg hbudget]
  cases hload : loadBlobAsBytes (peer.read blob.2) blob.1 blob.1.digest.sizeBytes with
  | error e =>
      refine .inr ⟨⟨e, rfl⟩, blob.1, parcels, rfl, h.sends, ?_, .inl ⟨e, hprepare.trans hload⟩⟩
      intro rest
      exact ⟨_, h.packed_cons config peer blob.1 rest _ rfl⟩
  | ok loaded =>
      obtain ⟨hloaded, hdigest⟩ := loadBlobAsBytes_eq_ok _ _ _ hload
      have hlight : ¬ config.batchUpdateBudgetBytes < loaded.size := by
        rw [Blob.size, hdigest]
        exact hsize
      have hsame : blob.1.digest.sizeBytes = loaded.size := by rw [Blob.size, hdigest]
      rw [hsame]
      dsimp only
      by_cases hfull : s.batch.blobs ≠ [] ∧ config.batchUpdateBudgetBytes <
          Packing.total Blob.size s.batch.blobs + loaded.size
      · rw [if_pos ((wouldExceedBudget_iff config peer h loaded.size).mpr hfull)]
        have hpack := fun rest => h.packed_cons config peer loaded rest _
          (Packing.pack_of_full Blob.size config.batchUpdateBudgetBytes s.batch.blobs loaded
            rest hlight hfull)
        obtain ⟨issued, hflushed⟩ := flushBatchUpdate_spec config peer s h.loaded h.bytes
        generalize flushBatchUpdate config peer s = flush at hflushed ⊢
        obtain ⟨_ | _, s'⟩ := flush
        · next e =>
            exact .inr ⟨⟨e, rfl⟩,
              h.stopped_flushed config peer hflushed blob loaded hdigest _ hpack⟩
        · next written =>
            have hblobs : s'.batch.blobs = [] := hflushed.blobs
            refine .inl ⟨rfl, loaded, _, uploading_push config peer blob loaded s' h.prepares
              (hprepare.trans hload) hloaded (h.sends_flushed config peer hflushed) ?_ ?_ ?_
              (h.succeeded_flushed config peer hflushed)⟩
            · rw [hblobs]
              exact fun _ hnone => absurd hnone List.not_mem_nil
            · rw [hblobs]
              exact hflushed.bytes
            · intro rest
              rw [hblobs, ← hpack rest, List.append_assoc, List.nil_append]
      · have hkeep := mt (wouldExceedBudget_iff config peer h loaded.size).mp hfull
        rw [if_neg hkeep]
        refine .inl ⟨rfl, loaded, parcels, uploading_push config peer blob loaded s h.prepares
          (hprepare.trans hload) hloaded h.sends h.loaded h.bytes ?_ h.succeeded⟩
        intro rest
        exact h.packed_cons config peer loaded rest _
          (Packing.pack_of_room Blob.size config.batchUpdateBudgetBytes s.batch.blobs loaded
            rest hlight hfull)

theorem uploadNext_spec (h : Uploading config peer done prepared parcels s)
    (blob : Blob × ℕ) :
    Handled config peer done prepared blob (uploadNext config peer blob.2 blob.1 s) := by
  by_cases hsize : config.batchUpdateBudgetBytes < blob.1.size
  · exact uploadNext_oversized config peer h blob hsize
  · exact uploadNext_small config peer h blob hsize

end Next

/-- What a whole upload of blobs does. It sends the beginning of the parcels of blobs with
these digests. When it succeeds it has sent all parcels of the prepared blobs, and every
RPC succeeded; when it fails, a blob could not be loaded or an RPC failed. -/
structure Outcome (blobs : List (Blob × ℕ)) (result : Except CasError Unit)
    (issued : List Issued) (all : List Blob) (sent : List (Packing.Parcel Blob)) : Prop where
  digests : all.map Blob.digest = blobs.map fun blob => blob.1.digest
  sends : List.Forall₂ (Sends config) sent issued
  sent_isPrefix : sent <+: Packing.pack Blob.size config.batchUpdateBudgetBytes [] all
  verdict :
    (result = .ok () ∧
      List.Forall₂ (fun blob sent => prepare config peer blob = .ok sent) blobs all ∧
      sent = Packing.pack Blob.size config.batchUpdateBudgetBytes [] all ∧
      ∀ rpc ∈ issued, rpc.Succeeded config peer) ∨
    (∃ e, result = .error e) ∧ ((∃ blob ∈ blobs, ∃ e, prepare config peer blob = .error e) ∨
      ∃ rpc ∈ issued, ¬ rpc.Succeeded config peer)

theorem prepare_digest (blob : Blob × ℕ) (sent : Blob)
    (h : prepare config peer blob = .ok sent) : sent.digest = blob.1.digest := by
  unfold prepare at h
  split at h
  · cases h
    rfl
  · exact (loadBlobAsBytes_eq_ok _ _ _ h).2

theorem digests_of_prepares (blobs : List (Blob × ℕ)) (all : List Blob)
    (h : List.Forall₂ (fun blob sent => prepare config peer blob = .ok sent) blobs all) :
    all.map Blob.digest = blobs.map fun blob => blob.1.digest := by
  induction h with
  | nil => rfl
  | cons hblob _ ih =>
      rw [List.map_cons, List.map_cons, ih, prepare_digest config peer _ _ hblob]

theorem outcome_flush {done : List (Blob × ℕ)} {prepared : List Blob}
    {parcels : List (Packing.Parcel Blob)} {s : UploadState}
    (h : Uploading config peer done prepared parcels s) :
    ∃ all sent, Outcome config peer done (flushBatchUpdate config peer s).1
      (flushBatchUpdate config peer s).2.issued all sent := by
  obtain ⟨issued, hflushed⟩ := flushBatchUpdate_spec config peer s h.loaded h.bytes
  have hpacked := h.packed []
  rw [List.append_nil] at hpacked
  generalize flushBatchUpdate config peer s = flush at hflushed ⊢
  refine ⟨prepared, parcels ++ Packing.close s.batch.blobs,
    digests_of_prepares config peer done prepared h.prepares,
    h.sends_flushed config peer hflushed, ⟨[], by rw [List.append_nil]; exact hpacked⟩, ?_⟩
  obtain ⟨_ | _, s'⟩ := flush
  · next e => exact .inr ⟨⟨e, rfl⟩, .inr (exists_failed_of_flushed config peer hflushed)⟩
  · next written =>
      exact .inl ⟨rfl, h.prepares, hpacked, h.succeeded_flushed config peer hflushed⟩

theorem uploadLoop_spec (blobs done : List (Blob × ℕ)) (prepared : List Blob)
    (parcels : List (Packing.Parcel Blob)) (s : UploadState)
    (h : Uploading config peer done prepared parcels s) :
    ∃ all sent, Outcome config peer (done ++ blobs) (uploadLoop config peer blobs s).1
      (uploadLoop config peer blobs s).2.issued all sent := by
  induction blobs generalizing done prepared parcels s with
  | nil =>
      rw [List.append_nil]
      exact outcome_flush config peer h
  | cons blob blobs ih =>
      have hnext := uploadNext_spec config peer h blob
      rw [uploadLoop]
      generalize uploadNext config peer blob.2 blob.1 s = step at hnext ⊢
      obtain ⟨_ | _, s'⟩ := step
      · next e =>
          obtain ⟨hok, -⟩ | ⟨-, next, sent, hdigest, hsends, hsent, hwhy⟩ := hnext
          · cases hok
          · refine ⟨prepared ++ next :: blobs.map Prod.fst, sent, ?_, hsends, hsent _,
              .inr ⟨⟨e, rfl⟩, ?_⟩⟩
            · rw [List.map_append, List.map_append, List.map_cons, List.map_cons, hdigest,
                digests_of_prepares config peer done prepared h.prepares, List.map_map]
              rfl
            · rcases hwhy with ⟨e', he⟩ | hfailed
              · exact .inl ⟨blob, List.mem_append_right _ List.mem_cons_self, e', he⟩
              · exact .inr hfailed
      · next handled =>
          obtain ⟨-, next, parcels', hs'⟩ | ⟨⟨e, he⟩, -⟩ := hnext
          · have hrest := ih (done ++ [blob]) (prepared ++ [next]) parcels' s' hs'
            rw [List.append_assoc, List.singleton_append] at hrest
            exact hrest
          · cases he

theorem uploadBlobsToCas_spec (blobs : List Blob) :
    ∃ all sent, Outcome config peer blobs.zipIdx (uploadBlobsToCas config peer blobs).1
      (uploadBlobsToCas config peer blobs).2.issued all sent :=
  uploadLoop_spec config peer blobs.zipIdx [] [] [] .start (uploading_start config peer)

theorem write_of_flush (s : UploadState) (position calls : ℕ) (blob : Blob)
    (h : .write position calls blob ∈ (flushBatchUpdate config peer s).2.issued) :
    .write position calls blob ∈ s.issued := by
  unfold flushBatchUpdate at h
  split at h
  · exact h
  · dsimp only [BatchUpdateState.take, uploadBatchToCas] at h
    split at h
    · exact h
    · rcases List.mem_append.mp h with hold | hnew
      · exact hold
      · cases List.mem_singleton.mp hnew

theorem write_of_uploadNext (next : Blob × ℕ) (s : UploadState) (position calls : ℕ)
    (blob : Blob)
    (h : .write position calls blob ∈ (uploadNext config peer next.2 next.1 s).2.issued) :
    .write position calls blob ∈ s.issued ∨ (blob, position) = next := by
  have hflush := write_of_flush config peer s position calls blob
  rw [uploadNext, digestSizeUsize_eq] at h
  dsimp only at h
  split at h
  · generalize flushBatchUpdate config peer s = flush at h hflush
    obtain ⟨_ | _, s'⟩ := flush
    · exact .inl (hflush h)
    · rcases List.mem_append.mp h with hold | hnew
      · exact .inl (hflush hold)
      · cases List.mem_singleton.mp hnew
        exact .inr rfl
  · split at h
    · exact .inl h
    · next loaded hload =>
        have hkept : .write position calls blob ∈
            (if s.batch.wouldExceedBudget next.1.digest.sizeBytes config.batchUpdateBudgetBytes
              then flushBatchUpdate config peer s else (.ok (), s)).2.issued →
              .write position calls blob ∈ s.issued := by
          split
          · exact hflush
          · exact id
        generalize (if s.batch.wouldExceedBudget next.1.digest.sizeBytes
          config.batchUpdateBudgetBytes then flushBatchUpdate config peer s
          else (.ok (), s)) = flushed at h hkept
        obtain ⟨_ | _, s'⟩ := flushed
        · exact .inl (hkept h)
        · exact .inl (hkept h)

/-- The writes of an upload are of its blobs, with their positions. -/
theorem write_of_uploadLoop (blobs : List (Blob × ℕ)) (s : UploadState)
    (position calls : ℕ) (blob : Blob)
    (h : .write position calls blob ∈ (uploadLoop config peer blobs s).2.issued) :
    .write position calls blob ∈ s.issued ∨ (blob, position) ∈ blobs := by
  induction blobs generalizing s with
  | nil => exact .inl (write_of_flush config peer s position calls blob h)
  | cons next blobs ih =>
      have hnext := write_of_uploadNext config peer next s position calls blob
      rw [uploadLoop] at h
      generalize uploadNext config peer next.2 next.1 s = step at h hnext
      obtain ⟨_ | _, s'⟩ := step
      · rcases hnext h with hold | heq
        · exact .inl hold
        · exact .inr (heq ▸ List.mem_cons_self)
      · rcases ih s' h with hold | hrest
        · rcases hnext hold with hold | heq
          · exact .inl hold
          · exact .inr (heq ▸ List.mem_cons_self)
        · exact .inr (List.mem_cons_of_mem _ hrest)

end Spec

end Cas

end RemoteFs
