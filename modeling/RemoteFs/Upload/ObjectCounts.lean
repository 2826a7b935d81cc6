import Mathlib.Algebra.BigOperators.Group.Finset.Basic
import RemoteFs.Cas.BatchSpec
import RemoteFs.Upload.Missing

/-!
# What an upload counts

The candidates are keyed by digest, so each is counted once. The answer of the store is a
list, and what is uploaded is counted along it: a digest that the answer repeats is uploaded
and counted again. `object_counts_unique_iff` says that the counts are those of the distinct
digests exactly when the answer repeats none.
-/

namespace RemoteFs

namespace Cas

/-- A store that reports the blobs it was given, with the bytes of their digests. -/
def BlobStore.Reports {σ : Type} (store : BlobStore σ) : Prop :=
  ∀ blobs s stats s', store.uploadBlobs blobs s = (.ok stats, s') →
    stats = ⟨blobs.length, (blobs.map fun blob => blob.digest.sizeBytes).sum⟩

/-- The CAS client reports the blobs it was given. -/
theorem uploadBlobs_reports {config : CasConfig} {peer : UploadPeer} {blobs : List Blob}
    {stats : UploadStats} {issued : List Issued}
    (h : uploadBlobs config peer blobs = (.ok stats, issued)) :
    stats = ⟨blobs.length, (blobs.map fun blob => blob.digest.sizeBytes).sum⟩ := by
  unfold uploadBlobs at h
  split at h
  · cases h
  · next total hcount =>
      have hresult := (Prod.mk.inj h).1
      obtain ⟨u, -, hstats⟩ := (Result.map_eq_ok_iff _ _ _).mp hresult
      rw [← hstats, foldlM_addUploaded blobs 0 total hcount, Nat.zero_add]
      rfl

end Cas

namespace Upload

open RemoteFs.Tree Cas

theorem nodup_keys_orInsertWith {sources : Sources} (h : (sources.map Prod.fst).Nodup)
    (digest : Digest) (blob : Blob) :
    ((orInsertWith sources digest blob).map Prod.fst).Nodup := by
  unfold orInsertWith
  cases hlookup : sources.lookup digest with
  | some found => exact h
  | none =>
      have hnew : digest ∉ sources.map Prod.fst := by
        intro hmem
        obtain ⟨pair, hpair, rfl⟩ := List.mem_map.mp hmem
        rw [Keyed.lookup_eq_some_of_mem h hpair] at hlookup
        cases hlookup
      rw [List.map_append, List.map_cons, List.map_nil]
      simpa [List.concat_eq_append] using h.concat hnew

theorem nodup_keys_foldl_orInsertWith {α : Type} (digest : α → Digest) (blob : α → Blob)
    (items : List α) :
    ∀ sources : Sources, (sources.map Prod.fst).Nodup →
      ((items.foldl (fun sources item => orInsertWith sources (digest item) (blob item))
        sources).map Prod.fst).Nodup := by
  induction items with
  | nil =>
      intro sources h
      exact h
  | cons item items ih =>
      intro sources h
      exact ih _ (nodup_keys_orInsertWith h _ _)

section Counts

variable [Sha256]

theorem nodup_keys_sourcesByDigest (tree : EncodedDirectoryTree) :
    ((sourcesByDigest tree).map Prod.fst).Nodup := by
  unfold sourcesByDigest
  exact nodup_keys_foldl_orInsertWith (fun directory : EncodedDirectory => directory.digest) _
    _ _ (nodup_keys_foldl_orInsertWith (fun file : Digest × PathBuf => file.1) _ _ _
      List.nodup_nil)

omit [Sha256] in
/-- The distinct digests of the files and the directories of an encoded tree. -/
def candidates (tree : EncodedDirectoryTree) : Finset Digest :=
  (tree.fileBlobs.map Prod.fst ++ tree.directories.map EncodedDirectory.digest).toFinset

theorem toFinset_keys (tree : EncodedDirectoryTree) :
    ((sourcesByDigest tree).map Prod.fst).toFinset = candidates tree := by
  ext digest
  rw [List.mem_toFinset, mem_keys_sourcesByDigest, candidates, List.mem_toFinset,
    List.mem_append, List.mem_map, List.mem_map]
  simp only [eq_comm]

/-- The counts of an upload are those of the distinct digests: the missing ones are
uploaded, the other candidates reused. -/
structure CountsUnique (candidates missing : Finset Digest) (stats : UploadObjectStats) :
    Prop where
  uploaded : stats.uploadedBlobs = missing.card
  reused : stats.reusedBlobs = (candidates \ missing).card
  total : stats.uploadedBlobs + stats.reusedBlobs = candidates.card
  bytes : stats.bytesUploaded = ∑ digest ∈ missing, digest.sizeBytes

variable [Prost] {σ : Type} {keys : Sources → List Digest} {store : BlobStore σ}
  {scanned : LocalTree} {fileDigests : List FileDigest} {encoded : EncodedDirectoryTree}
  {s middle : σ} {missing : List Digest}

theorem source_digest (h : encodeLocalTree scanned fileDigests = .ok encoded)
    {digest : Digest} {blob : Blob} (hmem : (digest, blob) ∈ sourcesByDigest encoded) :
    blob.digest = digest := by
  obtain ⟨-, hclosed, -⟩ := encodeLocalTree_closed scanned fileDigests encoded h
  obtain ⟨file, -, heq⟩ | ⟨directory, hdirectory, heq⟩ := mem_sourcesByDigest encoded _ hmem
  · cases heq
    rfl
  · cases heq
    exact (hclosed directory hdirectory).digest_eq.symm

/-- What is counted, in terms of the answer of the store. -/
theorem uploadEncodedTree_stats (hreports : store.Reports)
    (hencoded : encodeLocalTree scanned fileDigests = .ok encoded)
    (hfind : store.findMissingBlobs (keys (sourcesByDigest encoded)) s = (.ok missing, middle))
    {stats : UploadObjectStats} {s' : σ}
    (hupload : uploadEncodedTree keys store encoded s = (.ok stats, s')) :
    stats = ⟨missing.length, (keys (sourcesByDigest encoded)).length - missing.length,
      (missing.map Digest.sizeBytes).sum⟩ := by
  unfold uploadEncodedTree at hupload
  dsimp only at hupload
  rw [hfind] at hupload
  dsimp only at hupload
  split at hupload
  · cases hupload
  · next blobs hblobs =>
      split at hupload
      · cases hupload
      · next upload final hput =>
          cases hupload
          have hforall := (Result.mapM_eq_ok_iff _ _ _).mp hblobs
          have hsizes : blobs.map (fun blob => blob.digest.sizeBytes) =
              missing.map Digest.sizeBytes := by
            rw [← List.forall₂_eq_eq_eq, List.forall₂_map_left_iff, List.forall₂_map_right_iff]
            refine hforall.flip.imp ?_
            intro blob digest hsource
            unfold missingSource at hsource
            split at hsource
            · next found hlookup =>
                cases hsource
                rw [source_digest hencoded (Keyed.mem_of_lookup_eq_some hlookup)]
            · cases hsource
          rw [hreports _ _ _ _ hput, hsizes, ← hforall.length_eq]

omit [Prost] in
theorem uploadEncodedTree_of_requested
    (hkeys : ∀ sources, (keys sources).Perm (sources.map Prod.fst))
    (hfind : store.findMissingBlobs (keys (sourcesByDigest encoded)) s = (.ok missing, middle))
    (hrequested : ∀ digest ∈ missing, digest ∈ keys (sourcesByDigest encoded))
    (haccepts : ∀ blobs s, ∃ stats s', store.uploadBlobs blobs s = (.ok stats, s')) :
    ∃ stats s', uploadEncodedTree keys store encoded s = (.ok stats, s') := by
  have hsources : ∃ blobs, missing.mapM (missingSource (sourcesByDigest encoded)) =
      .ok blobs := by
    refine Result.exists_ok_of_mapM _ _ ?_
    intro digest hdigest
    obtain ⟨pair, hpair, rfl⟩ :=
      List.mem_map.mp ((hkeys _).mem_iff.mp (hrequested digest hdigest))
    refine ⟨pair.2, ?_⟩
    rw [missingSource, Keyed.lookup_eq_some_of_mem (nodup_keys_sourcesByDigest encoded) hpair]
  obtain ⟨blobs, hblobs⟩ := hsources
  obtain ⟨stats, s', hput⟩ := haccepts blobs middle
  unfold uploadEncodedTree
  dsimp only
  rw [hfind]
  dsimp only
  rw [hblobs]
  dsimp only
  rw [hput]
  exact ⟨_, s', rfl⟩

/-- The counts of an upload are those of the distinct digests exactly when the answer of the
store repeats none. -/
theorem object_counts_unique_iff
    (hkeys : ∀ sources, (keys sources).Perm (sources.map Prod.fst)) (hreports : store.Reports)
    (hencoded : encodeLocalTree scanned fileDigests = .ok encoded)
    (hfind : store.findMissingBlobs (keys (sourcesByDigest encoded)) s = (.ok missing, middle))
    (hrequested : ∀ digest ∈ missing, digest ∈ candidates encoded) :
    (∀ stats s', uploadEncodedTree keys store encoded s = (.ok stats, s') →
      (CountsUnique (candidates encoded) missing.toFinset stats ↔ missing.Nodup)) ∧
    ((∀ blobs s, ∃ stats s', store.uploadBlobs blobs s = (.ok stats, s')) →
      ∃ stats s', uploadEncodedTree keys store encoded s = (.ok stats, s')) := by
  have hcount : (keys (sourcesByDigest encoded)).length = (candidates encoded).card := by
    rw [(hkeys _).length_eq, ← toFinset_keys,
      List.toFinset_card_of_nodup (nodup_keys_sourcesByDigest encoded)]
  have hsubset : missing.toFinset ⊆ candidates encoded := by
    intro digest hdigest
    exact hrequested digest (List.mem_toFinset.mp hdigest)
  constructor
  · intro stats s' hupload
    rw [uploadEncodedTree_stats hreports hencoded hfind hupload, hcount]
    constructor
    · intro h
      have hlength : missing.toFinset.card = missing.length := h.uploaded.symm
      exact Multiset.toFinset_card_eq_card_iff_nodup.mp hlength
    · intro hnodup
      have hcard := List.toFinset_card_of_nodup hnodup
      have hle : missing.toFinset.card ≤ (candidates encoded).card :=
        Finset.card_le_card hsubset
      refine ⟨hcard.symm, ?_, ?_, ?_⟩
      · rw [Finset.card_sdiff_of_subset hsubset, hcard]
      · dsimp only
        omega
      · exact (List.sum_toFinset _ hnodup).symm
  · refine uploadEncodedTree_of_requested hkeys hfind ?_
    intro digest hdigest
    have hmem := hrequested digest hdigest
    rw [← toFinset_keys, List.mem_toFinset] at hmem
    exact (hkeys _).mem_iff.mpr hmem

end Counts

namespace Sample

/-- A store that answers every digest twice and reports what it is given. -/
def repeatingStore : BlobStore Unit where
  findMissingBlobs digests s := (.ok (digests ++ digests), s)
  uploadBlobs blobs s :=
    (.ok ⟨blobs.length, (blobs.map fun blob => blob.digest.sizeBytes).sum⟩, s)

theorem repeatingStore_reports : repeatingStore.Reports := by
  intro blobs s stats s' h
  cases h
  rfl

end Sample

/-- The theorem at the sample directory and a store that answers every digest twice. -/
theorem object_counts_unique_iff_sample :
    letI : Sha256 := Tree.Sample.sha256 Tree.Sample.blobs
    ∃ stats missing,
      Sample.repeatingStore.findMissingBlobs ((sourcesByDigest Sample.encoded).map Prod.fst) () =
        (.ok missing, ()) ∧
      uploadEncodedTree (fun sources => sources.map Prod.fst) Sample.repeatingStore
        Sample.encoded () = (.ok stats, ()) ∧
      (CountsUnique (candidates Sample.encoded) missing.toFinset stats ↔ missing.Nodup) := by
  let _ : Sha256 := Tree.Sample.sha256 Tree.Sample.blobs
  let _ : Prost := Prost.prescribed Tree.Sample.messages
  refine ⟨_, _, rfl, rfl, ?_⟩
  refine (object_counts_unique_iff (fun _ => List.Perm.refl _) Sample.repeatingStore_reports
    Sample.encodeLocalTree_eq rfl ?_).1 _ () rfl
  intro digest hdigest
  rw [← toFinset_keys, List.mem_toFinset]
  exact (List.mem_append.mp hdigest).elim id id

/-- The sample directory has two blobs; four are counted when the answer repeats them. -/
theorem repeated_answer_counted_twice :
    letI : Sha256 := Tree.Sample.sha256 Tree.Sample.blobs
    ∃ stats missing,
      Sample.repeatingStore.findMissingBlobs ((sourcesByDigest Sample.encoded).map Prod.fst) () =
        (.ok missing, ()) ∧
      uploadEncodedTree (fun sources => sources.map Prod.fst) Sample.repeatingStore
        Sample.encoded () = (.ok stats, ()) ∧
      (∀ digest ∈ missing, digest ∈ candidates Sample.encoded) ∧
      ¬ CountsUnique (candidates Sample.encoded) missing.toFinset stats := by
  let _ : Sha256 := Tree.Sample.sha256 Tree.Sample.blobs
  refine ⟨_, _, rfl, rfl, ?_, ?_⟩
  · intro digest hdigest
    rw [← toFinset_keys, List.mem_toFinset]
    exact (List.mem_append.mp hdigest).elim id id
  · intro h
    have hcard : 4 = _ := h.uploaded
    rw [List.toFinset_append, Finset.union_self] at hcard
    have hle := List.toFinset_card_le ((sourcesByDigest Sample.encoded).map Prod.fst)
    have htwo : ((sourcesByDigest Sample.encoded).map Prod.fst).length = 2 := by decide
    omega

end Upload

end RemoteFs
