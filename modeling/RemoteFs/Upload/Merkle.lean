import RemoteFs.Upload.HashSpec
import RemoteFs.Upload.ScanSpec

/-!
# The Merkle digest of a tree

`merkle` is the digest of a tree by recursion: a file has the digest of its
content and a directory the digest of its canonical message, whose entries carry
the digests of the children. Nodes that cannot be uploaded have no entry.

The canonical message does not see the order of its entries, so the digest of a
tree does not depend on the order in which `read_dir` returns them
(`merkle_sorted`).
-/

namespace RemoteFs

namespace Upload

open SortBy RemoteFs.Tree

/-- The entry of a directory for a child node with the given digest. -/
def insertionOf (name : OsStr) (node : LocalNode) (digest : Digest) : Option Insertion :=
  match node with
  | .file metadata _ =>
      some (.file
        { name := name.display, digest := digest, metadata := metadataFor .file metadata })
  | .directory metadata _ _ =>
      some (.directory
        { name := name.display, digest := digest,
          metadata := metadataFor .directory metadata })
  | .symlink metadata target =>
      some (.symlink
        { name := name.display, target := targetText target,
          metadata := metadataFor .symlink metadata })
  | .special _ _ => none
  | .unreadable _ => none

def directoryBuilder (metadata : Metadata) (insertions : List Insertion) : DirectoryBuilder :=
  (DirectoryBuilder.start (some (metadataFor .directory metadata))).collected insertions

section Merkle

variable [Sha256] [Prost]

mutual

def merkle : LocalNode → Digest
  | .file _ content => Digest.forBytes content
  | .directory metadata _ entries =>
      (directoryBuilder metadata (merkleEntries entries)).canonical.digest
  | .symlink _ _ => Digest.forBytes []
  | .special _ _ => Digest.forBytes []
  | .unreadable _ => Digest.forBytes []

/-- The entries of a directory, with the digests of the children. -/
def merkleEntries : List (OsStr × LocalNode) → List Insertion
  | [] => []
  | (name, node) :: rest => (insertionOf name node (merkle node)).toList ++ merkleEntries rest

end

theorem merkleEntries_eq (entries : List (OsStr × LocalNode)) :
    merkleEntries entries =
      entries.filterMap fun entry => insertionOf entry.1 entry.2 (merkle entry.2) := by
  induction entries with
  | nil => simp [merkleEntries]
  | cons entry rest ih =>
      rw [merkleEntries, ih, List.filterMap_cons]
      cases insertionOf entry.1 entry.2 (merkle entry.2) with
      | none => rfl
      | some insertion => rfl

/-- The encoded directory of a node with these entries. -/
def encodedDirectory (metadata : Metadata) (entries : List (OsStr × LocalNode)) :
    EncodedDirectory :=
  (directoryBuilder metadata (merkleEntries entries)).canonical

theorem merkle_directory (metadata : Metadata) (listing : Option IoError)
    (entries : List (OsStr × LocalNode)) :
    merkle (.directory metadata listing entries) =
      (encodedDirectory metadata entries).digest := by
  rw [merkle, encodedDirectory]

omit [Sha256] [Prost] in
theorem insertionOf_name (name : OsStr) (node : LocalNode) (digest : Digest)
    (insertion : Insertion) (h : insertionOf name node digest = some insertion) :
    insertion.name = name.display := by
  cases node with
  | file metadata content => cases h; rfl
  | directory metadata listing entries => cases h; rfl
  | symlink metadata target => cases h; rfl
  | special metadata kind => cases h
  | unreadable source => cases h

omit [Sha256] [Prost] in
theorem insertion_names_nodup (entries : List (OsStr × LocalNode))
    (digest : OsStr × LocalNode → Digest)
    (hvalid : ∀ entry ∈ entries, ValidFileName entry.1)
    (hnodup : (entries.map Prod.fst).Nodup) :
    ((entries.filterMap fun entry => insertionOf entry.1 entry.2 (digest entry)).map
      Insertion.name).Nodup := by
  have hpairs : entries.Pairwise fun left right => left.1.display ≠ right.1.display := by
    refine (List.pairwise_map.mp hnodup).imp_of_mem ?_
    intro left right hleft hright hne heq
    obtain ⟨text, htext, -⟩ := hvalid left hleft
    obtain ⟨text', htext', -⟩ := hvalid right hright
    rw [htext, htext'] at hne heq
    exact hne (congrArg OsStr.utf8 heq)
  refine List.pairwise_map.mpr (hpairs.filterMap _ ?_)
  intro left right hne insertion hinsertion insertion' hinsertion'
  rw [insertionOf_name _ _ _ _ hinsertion, insertionOf_name _ _ _ _ hinsertion']
  exact hne

omit [Prost] [Sha256] in
theorem nodup_filterMap_of_perm {α : Type} (part : Insertion → Option α) (name : α → String)
    (hname : ∀ insertion a, part insertion = some a → name a = insertion.name)
    {insertions : List Insertion} (hnodup : (insertions.map Insertion.name).Nodup) :
    ((insertions.filterMap part).map fun a => nameKey (name a)).Nodup := by
  refine List.pairwise_map.mpr ((List.pairwise_map.mp hnodup).filterMap _ ?_)
  intro left right hne a ha b hb
  rw [hname left a ha, hname right b hb]
  exact fun h => hne (nameKey_inj.mp h)

/-- The canonical form does not depend on the order of the calls. -/
theorem canonical_of_perm (metadata : Metadata) {insertions insertions' : List Insertion}
    (h : insertions.Perm insertions') (hnodup : (insertions.map Insertion.name).Nodup) :
    (directoryBuilder metadata insertions).canonical =
      (directoryBuilder metadata insertions').canonical := by
  have hfiles := sortBy_eq_of_perm (fun entry : FileEntry => nameKey entry.name)
    (h.filterMap Insertion.file?)
    (nodup_filterMap_of_perm Insertion.file? FileEntry.name
      (by
        intro insertion entry hentry
        cases insertion <;> cases hentry
        rfl) hnodup)
  have hdirectories := sortBy_eq_of_perm (fun entry : DirectoryEntry => nameKey entry.name)
    (h.filterMap Insertion.directory?)
    (nodup_filterMap_of_perm Insertion.directory? DirectoryEntry.name
      (by
        intro insertion entry hentry
        cases insertion <;> cases hentry
        rfl) hnodup)
  have hsymlinks := sortBy_eq_of_perm (fun entry : SymlinkEntry => nameKey entry.name)
    (h.filterMap Insertion.symlink?)
    (nodup_filterMap_of_perm Insertion.symlink? SymlinkEntry.name
      (by
        intro insertion entry hentry
        cases insertion <;> cases hentry
        rfl) hnodup)
  simp only [directoryBuilder, DirectoryBuilder.start_collected, DirectoryBuilder.canonical,
    DirectoryBuilder.canonicalDirectory, DirectoryBuilder.canonicalWarnings,
    DirectoryBuilder.rootWarnings, sortEntries, hfiles, hdirectories, hsymlinks]

omit [Prost] [Sha256] in
theorem insertionOf_sorted (name : OsStr) (node : LocalNode) (digest : Digest) :
    insertionOf name node.sorted digest = insertionOf name node digest := by
  cases node with
  | file metadata content => rw [LocalNode.sorted]
  | directory metadata listing entries =>
      rw [LocalNode.sorted]
      rfl
  | symlink metadata target => rw [LocalNode.sorted]
  | special metadata kind => rw [LocalNode.sorted]
  | unreadable source => rw [LocalNode.sorted]

theorem merkle_sorted (options : UploadOptions) (node : LocalNode)
    (h : Uploadable options node) : merkle node.sorted = merkle node := by
  induction node with
  | directory metadata listing entries ih =>
      obtain ⟨-, -, hnodup, hentries⟩ := (uploadable_directory_iff options _ _ _).mp h
      have hchildren : merkleEntries (LocalNode.sortedEntries entries) =
          merkleEntries entries := by
        rw [merkleEntries_eq, merkleEntries_eq, LocalNode.sortedEntries_eq,
          List.filterMap_map]
        refine List.filterMap_congr ?_
        intro entry hentry
        simp only [Function.comp_def, ih entry hentry (hentries entry hentry).2,
          insertionOf_sorted]
      have hnames := insertion_names_nodup entries (fun entry => merkle entry.2)
        (fun entry hentry => (hentries entry hentry).1) hnodup
      have hperm := (sortBy_perm (fun entry : OsStr × LocalNode => byteKey entry.1.asBytes)
        (LocalNode.sortedEntries entries)).filterMap
          fun entry => insertionOf entry.1 entry.2 (merkle entry.2)
      rw [← merkleEntries_eq, ← merkleEntries_eq, hchildren] at hperm
      rw [LocalNode.sorted, merkle, merkle]
      refine (congrArg EncodedDirectory.digest (canonical_of_perm metadata hperm.symm ?_)).symm
      rw [merkleEntries_eq]
      exact hnames
  | leaf node hleaf => rw [node.sorted_leaf hleaf]

end Merkle

theorem uploadable_sorted (options : UploadOptions) (node : LocalNode) :
    Uploadable options node.sorted ↔ Uploadable options node := by
  induction node with
  | directory metadata listing entries ih =>
      have hperm := sortBy_perm (fun entry : OsStr × LocalNode => byteKey entry.1.asBytes)
        (LocalNode.sortedEntries entries)
      have hnames : ((sortBy (fun entry : OsStr × LocalNode => byteKey entry.1.asBytes)
          (LocalNode.sortedEntries entries)).map Prod.fst).Nodup ↔
          (entries.map Prod.fst).Nodup := by
        rw [(hperm.map Prod.fst).nodup_iff, LocalNode.sortedEntries_eq, List.map_map]
        rfl
      have hall : (∀ entry ∈ sortBy (fun entry : OsStr × LocalNode => byteKey entry.1.asBytes)
            (LocalNode.sortedEntries entries),
            ValidFileName entry.1 ∧ Uploadable options entry.2) ↔
          ∀ entry ∈ entries, ValidFileName entry.1 ∧ Uploadable options entry.2 := by
        constructor
        · intro h entry hentry
          have hsorted : (entry.1, entry.2.sorted) ∈ LocalNode.sortedEntries entries := by
            rw [LocalNode.sortedEntries_eq]
            exact List.mem_map_of_mem hentry
          have hmem := h _ (hperm.mem_iff.mpr hsorted)
          exact ⟨hmem.1, (ih entry hentry).mp hmem.2⟩
        · intro h entry hentry
          rw [hperm.mem_iff, LocalNode.sortedEntries_eq] at hentry
          obtain ⟨original, horiginal, rfl⟩ := List.mem_map.mp hentry
          exact ⟨(h original horiginal).1, (ih original horiginal).mpr (h original horiginal).2⟩
      rw [LocalNode.sorted, uploadable_directory_iff, uploadable_directory_iff, hnames, hall]
  | leaf node hleaf => rw [node.sorted_leaf hleaf]

end Upload

end RemoteFs
