import RemoteFs.Cas.Error
import Mathlib.Data.List.Basic

/-!
# Blob stores

`BlobStore` is the storage surface the upload and the session use. A store has
a state of its own, which every call may change, and any call may fail.

`Honest` collects what the program expects of a store. Its contents are seen
through `content`: what is held stays there, the answer about missing blobs
covers every requested digest that is not held, and a successful upload makes
every given blob present. That what is held under a digest hashes to it is
`Verified`, an assumption about the initial contents only.
-/

namespace RemoteFs

namespace Cas

inductive BlobContents where
  | bytes (data : Bytes)
  | filePath (path : PathBuf)
  deriving DecidableEq

structure Blob where
  digest : Digest
  contents : BlobContents
  deriving DecidableEq

namespace Blob

def fromBytes [Sha256] (data : Bytes) : Blob where
  digest := Digest.forBytes data
  contents := .bytes data

def fromFilePath (digest : Digest) (path : PathBuf) : Blob where
  digest := digest
  contents := .filePath path

end Blob

structure UploadStats where
  uploadedBlobs : ℕ := 0
  bytesUploaded : ℕ := 0
  deriving DecidableEq, Repr

structure BlobStore (σ : Type) where
  findMissingBlobs : List Digest → σ → Except CasError (List Digest) × σ
  uploadBlobs : List Blob → σ → Except CasError UploadStats × σ

/-- The store that also keeps the arguments of its upload calls. -/
def BlobStore.recorded {σ : Type} (store : BlobStore σ) : BlobStore (σ × List (List Blob)) where
  findMissingBlobs digests s :=
    let (result, next) := store.findMissingBlobs digests s.1
    (result, next, s.2)
  uploadBlobs blobs s :=
    let (result, next) := store.uploadBlobs blobs s.1
    (result, next, s.2 ++ [blobs])

/-- What a blob stands for, given the contents of the local files. -/
def BlobContents.read (files : PathBuf → Option Bytes) : BlobContents → Option Bytes
  | .bytes data => some data
  | .filePath path => files path

/-- What is held under a digest hashes to it. -/
def Verified [Sha256] {σ : Type} (content : σ → Digest → Option Bytes) (s : σ) : Prop :=
  ∀ digest bytes, content s digest = some bytes → Digest.forBytes bytes = digest

/-- The behaviour the program expects of a store, seen through its contents. An
upload stores something it is given under a digest, or leaves what was there. -/
structure BlobStore.Honest [Sha256] {σ : Type} (store : BlobStore σ)
    (content : σ → Digest → Option Bytes) (files : PathBuf → Option Bytes) : Prop where
  findMissing_complete : ∀ digests s missing s',
    store.findMissingBlobs digests s = (.ok missing, s') →
      ∀ digest ∈ digests, content s digest = none → digest ∈ missing
  findMissing_keeps : ∀ digests s missing s',
    store.findMissingBlobs digests s = (.ok missing, s') →
      ∀ digest bytes, content s digest = some bytes → content s' digest = some bytes
  findMissing_verified : ∀ digests s missing s',
    store.findMissingBlobs digests s = (.ok missing, s') →
      Verified content s → Verified content s'
  upload_present : ∀ blobs s stats s', store.uploadBlobs blobs s = (.ok stats, s') →
    ∀ blob ∈ blobs, ∃ bytes, content s' blob.digest = some bytes ∧
      ((∃ given ∈ blobs, given.digest = blob.digest ∧
        given.contents.read files = some bytes) ∨ content s blob.digest = some bytes)
  upload_keeps : ∀ blobs s stats s', store.uploadBlobs blobs s = (.ok stats, s') →
    ∀ digest bytes, content s digest = some bytes → content s' digest = some bytes

/-- The contents of a store as a list of digests and bytes. -/
abbrev Held := List (Digest × Bytes)

/-- Store the blobs that are not held yet; a blob that cannot be read fails. -/
def storeAll (files : PathBuf → Option Bytes) : List Blob → Held → Option Held
  | [], held => some held
  | blob :: blobs, held =>
      match blob.contents.read files with
      | none => none
      | some bytes =>
          storeAll files blobs
            (if (held.lookup blob.digest).isSome then held else (blob.digest, bytes) :: held)

def memoryStore (files : PathBuf → Option Bytes) : BlobStore Held where
  findMissingBlobs digests held :=
    (.ok (digests.filter fun digest => (held.lookup digest).isNone), held)
  uploadBlobs blobs held :=
    match storeAll files blobs held with
    | none => (.error (.unsupportedUrl ""), held)
    | some held' => (.ok { uploadedBlobs := blobs.length }, held')

theorem storeAll_spec (files : PathBuf → Option Bytes) (blobs : List Blob)
    (held held' : Held) (h : storeAll files blobs held = some held') :
    (∀ digest bytes, held.lookup digest = some bytes → held'.lookup digest = some bytes) ∧
      ∀ blob ∈ blobs, ∃ bytes, held'.lookup blob.digest = some bytes ∧
        ((∃ given ∈ blobs, given.digest = blob.digest ∧
          given.contents.read files = some bytes) ∨ held.lookup blob.digest = some bytes) := by
  induction blobs generalizing held with
  | nil =>
      rw [storeAll, Option.some.injEq] at h
      rw [← h]
      exact ⟨fun _ _ hd => hd, fun _ hb => absurd hb List.not_mem_nil⟩
  | cons first blobs ih =>
      rw [storeAll] at h
      split at h
      · cases h
      · next given hread =>
          obtain ⟨hkeeps, hpresent⟩ := ih _ h
          have hgrow : ∀ digest bytes, held.lookup digest = some bytes →
              (if (held.lookup first.digest).isSome then held
                else (first.digest, given) :: held).lookup digest = some bytes := by
            intro digest bytes hd
            split
            · exact hd
            · next hnew =>
                have hne : (digest == first.digest) = false := by
                  rw [beq_eq_false_iff_ne]
                  rintro rfl
                  simp [hd] at hnew
                rw [List.lookup_cons, hne]
                exact hd
          have hback : ∀ digest bytes, (if (held.lookup first.digest).isSome then held
                else (first.digest, given) :: held).lookup digest = some bytes →
              held.lookup digest = some bytes ∨ first.digest = digest ∧ given = bytes := by
            intro digest bytes hd
            split at hd
            · exact .inl hd
            · rw [List.lookup_cons] at hd
              split at hd
              · next heq => exact .inr ⟨(eq_of_beq heq).symm, Option.some.inj hd⟩
              · exact .inl hd
          refine ⟨fun digest bytes hd => hkeeps digest bytes (hgrow digest bytes hd), ?_⟩
          intro blob hblob
          rcases List.mem_cons.mp hblob with rfl | hblob
          · cases hheld : held.lookup blob.digest with
            | some bytes => exact ⟨bytes, hkeeps _ _ (hgrow _ _ hheld), .inr rfl⟩
            | none =>
                refine ⟨given, hkeeps _ _ ?_, .inl ⟨blob, List.mem_cons_self, rfl, hread⟩⟩
                simp [hheld]
          · obtain ⟨bytes, hbytes, hsource⟩ := hpresent blob hblob
            refine ⟨bytes, hbytes, ?_⟩
            rcases hsource with ⟨other, hother, hdigest, hcontents⟩ | hold
            · exact .inl ⟨other, List.mem_cons_of_mem _ hother, hdigest, hcontents⟩
            · rcases hback _ _ hold with hold | ⟨hdigest, rfl⟩
              · exact .inr hold
              · exact .inl ⟨first, List.mem_cons_self, hdigest, hread⟩

theorem memoryStore_honest [Sha256] (files : PathBuf → Option Bytes) :
    (memoryStore files).Honest (fun held digest => held.lookup digest) files where
  findMissing_complete := by
    intro digests s missing s' h digest hdigest hnone
    cases h
    simpa [hnone] using hdigest
  findMissing_keeps := by
    intro digests s missing s' h digest bytes hheld
    cases h
    exact hheld
  findMissing_verified := by
    intro digests s missing s' h hverified
    cases h
    exact hverified
  upload_present := by
    intro blobs s stats s' h
    simp only [memoryStore] at h
    split at h
    · cases h
    · next held' hstore =>
        cases h
        exact (storeAll_spec files blobs s s' hstore).2
  upload_keeps := by
    intro blobs s stats s' h
    simp only [memoryStore] at h
    split at h
    · cases h
    · next held' hstore =>
        cases h
        exact (storeAll_spec files blobs s s' hstore).1

end Cas

end RemoteFs
