import RemoteFs.Tree.RoundTrip

/-!
# Encoding forgets the order of insertion

The entries of each kind are sorted before anything else looks at them. When the
names are pairwise different the sorted entries are determined by the set of
insertions. When they are not, two entries of one name may be sorted either way,
but the sequence of sorted names is still determined, and with it the name that is
reported as a duplicate.
-/

namespace RemoteFs

namespace Tree

open SortBy

namespace DirectoryBuilder

/-- The same entries, in another order within each kind. -/
structure Rearranged (builder other : DirectoryBuilder) : Prop where
  metadata : builder.metadata = other.metadata
  files : builder.files.Perm other.files
  directories : builder.directories.Perm other.directories
  symlinks : builder.symlinks.Perm other.symlinks

theorem collected_rearranged (self : DirectoryBuilder) {insertions others : List Insertion}
    (h : insertions.Perm others) :
    (self.collected insertions).Rearranged (self.collected others) where
  metadata := rfl
  files := (h.filterMap Insertion.file?).append_left self.files
  directories := (h.filterMap Insertion.directory?).append_left self.directories
  symlinks := (h.filterMap Insertion.symlink?).append_left self.symlinks

theorem encode_of_rejected [Sha256] [Prost] {builder : DirectoryBuilder} {e : TreeError}
    (h : rejectDuplicateNames (sortEntries builder) = .error e) :
    builder.encode =
      .error (.context "reject duplicate names before encoding directory" e) := by
  simp only [encode, h, withContext_error, Result.error_bind]
  rfl

section Rearranged

variable {builder other : DirectoryBuilder} (h : builder.Rearranged other)

include h

theorem Rearranged.names_sortEntries : (sortEntries builder).names = (sortEntries other).names := by
  have hsorted : ∀ {α : Type} (name : α → String) {entries others : List α},
      entries.Perm others → (sortBy (fun entry => nameKey (name entry)) entries).map name =
        (sortBy (fun entry => nameKey (name entry)) others).map name := by
    intro α name entries others hperm
    rw [map_sortBy _ nameKey name entries fun _ => rfl,
      map_sortBy _ nameKey name others fun _ => rfl]
    exact sortBy_eq_of_injective nameKey nameKey_injective (hperm.map name)
  simp only [names, sortEntries, hsorted FileEntry.name h.files,
    hsorted DirectoryEntry.name h.directories, hsorted SymlinkEntry.name h.symlinks]

theorem Rearranged.sortEntries_eq (hnodup : builder.names.Nodup) :
    sortEntries builder = sortEntries other := by
  have hkeys : ∀ {α : Type} (name : α → String) {entries : List α},
      (entries.map name).Nodup → (entries.map fun entry => nameKey (name entry)).Nodup := by
    intro α name entries hnames
    have hmap := hnames.map nameKey_injective
    rwa [List.map_map] at hmap
  obtain ⟨hmetadata, hfiles, hdirectories, hsymlinks⟩ := h
  rw [names, List.nodup_append, List.nodup_append] at hnodup
  obtain ⟨⟨hnfiles, hndirectories, -⟩, hnsymlinks, -⟩ := hnodup
  unfold sortEntries
  rw [hmetadata, sortBy_eq_of_perm _ hfiles (hkeys FileEntry.name hnfiles),
    sortBy_eq_of_perm _ hdirectories (hkeys DirectoryEntry.name hndirectories),
    sortBy_eq_of_perm _ hsymlinks (hkeys SymlinkEntry.name hnsymlinks)]

/-- The encoder returns the same value or the same error. -/
theorem Rearranged.encode_eq [Sha256] [Prost] : builder.encode = other.encode := by
  by_cases hnodup : builder.names.Nodup
  · unfold encode
    rw [h.sortEntries_eq hnodup]
  · have hreject : rejectDuplicateNames (sortEntries other) =
        rejectDuplicateNames (sortEntries builder) := by
      rw [rejectDuplicateNames, rejectDuplicateNames, h.names_sortEntries]
    cases hcheck : rejectDuplicateNames (sortEntries builder) with
    | ok u =>
        rw [rejectDuplicateNames_eq_ok_iff, (names_sortEntries_perm builder).nodup_iff] at hcheck
        exact absurd hcheck hnodup
    | error e =>
        rw [encode_of_rejected hcheck, encode_of_rejected (hreject.trans hcheck)]

end Rearranged

end DirectoryBuilder

/-- Insertions with valid names are accepted in every order, and the encoder then
returns the same directory, bytes, digest and warnings, or the same error. -/
theorem encode_ignores_insertion_order [Sha256] [Prost] (metadata : Option NodeMetadata)
    (insertions others : List Insertion) (hperm : insertions.Perm others)
    (hvalid : ∀ insertion ∈ insertions, ValidName insertion.name) :
    ∃ builder other, (DirectoryBuilder.start metadata).insertAll insertions = .ok builder ∧
      (DirectoryBuilder.start metadata).insertAll others = .ok other ∧
      builder.encode = other.encode := by
  refine ⟨_, _, (DirectoryBuilder.insertAll_eq_ok_iff _ _ _).mpr ⟨hvalid, rfl⟩,
    (DirectoryBuilder.insertAll_eq_ok_iff _ _ _).mpr ⟨?_, rfl⟩, ?_⟩
  · exact fun insertion hinsertion => hvalid insertion (hperm.mem_iff.mpr hinsertion)
  · exact (DirectoryBuilder.collected_rearranged _ hperm).encode_eq

/-- The entries of the sample root and their reverse encode to the same directory; two entries of
one name are refused with the same error in both orders. -/
theorem encode_ignores_insertion_order_sample :
    letI : Sha256 := Sample.sha256 Sample.nestedBlobs
    letI : Prost := Prost.prescribed Sample.nestedMessages
    (∃ builder other encoded,
      (DirectoryBuilder.start (some Sample.rootMetadata)).insertAll Sample.nestedInsertions =
        .ok builder ∧
      (DirectoryBuilder.start (some Sample.rootMetadata)).insertAll
        Sample.nestedInsertions.reverse = .ok other ∧
      builder.encode = .ok encoded ∧ other.encode = .ok encoded ∧
      encoded.directory = Sample.nested) ∧
    ∃ builder other e,
      (DirectoryBuilder.start none).insertAll
        [.file Sample.fileEntry, .file { Sample.otherEntry with name := "a" }] = .ok builder ∧
      (DirectoryBuilder.start none).insertAll
        [.file { Sample.otherEntry with name := "a" }, .file Sample.fileEntry] = .ok other ∧
      builder.encode = .error e ∧ other.encode = .error e := by
  let _ : Sha256 := Sample.sha256 Sample.nestedBlobs
  let _ : Prost := Prost.prescribed Sample.nestedMessages
  constructor
  · obtain ⟨builder, other, hbuilder, hother, hsame⟩ := encode_ignores_insertion_order
      (some Sample.rootMetadata) Sample.nestedInsertions Sample.nestedInsertions.reverse
      (List.reverse_perm _).symm (by decide)
    have heq : builder = Sample.nestedBuilder := by
      cases hbuilder
      rfl
    have hencode : builder.encode = .ok Sample.nestedBuilder.canonical := by
      rw [heq]
      exact (DirectoryBuilder.encode_eq_ok_iff _ _).mpr ⟨Sample.nestedBuilder_encodable, rfl⟩
    exact ⟨builder, other, _, hbuilder, hother, hencode, hsame ▸ hencode,
      Sample.nestedBuilder_canonicalDirectory⟩
  · obtain ⟨builder, other, hbuilder, hother, hsame⟩ := encode_ignores_insertion_order none
      [.file Sample.fileEntry, .file { Sample.otherEntry with name := "a" }] _
      (List.Perm.swap _ _ _) (by decide)
    cases hencode : builder.encode with
    | error e => exact ⟨builder, other, e, hbuilder, hother, hencode, hsame ▸ hencode⟩
    | ok encoded =>
        obtain ⟨hencodable, -⟩ := (DirectoryBuilder.encode_eq_ok_iff _ _).mp hencode
        cases hbuilder
        exact absurd hencodable.1 (by decide)

end Tree

end RemoteFs
