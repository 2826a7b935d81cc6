import RemoteFs.Reapi.WireFormat
import RemoteFs.Tree.Canonical
import RemoteFs.Tree.Decode

/-!
# Decoding undoes encoding

A directory is built by a sequence of insertions, one call of `addFile`,
`addDirectory` or `addSymlink` each. The message of the builder is well formed,
so the decoder accepts the bytes the encoder returned and gives the message
back; the message contains the inserted entries and nothing else.

What a node keeps of its entry is said once for the properties all kinds share
(`PropertiesOf`) and once for each kind (`FileNodeOf`, `DirectoryNodeOf`,
`SymlinkNodeOf`).
-/

namespace RemoteFs

namespace Tree

open Reapi SortBy

inductive Insertion where
  | file (entry : FileEntry)
  | directory (entry : DirectoryEntry)
  | symlink (entry : SymlinkEntry)

namespace Insertion

def name : Insertion → String
  | .file entry => entry.name
  | .directory entry => entry.name
  | .symlink entry => entry.name

def metadata : Insertion → NodeMetadata
  | .file entry => entry.metadata
  | .directory entry => entry.metadata
  | .symlink entry => entry.metadata

def file? : Insertion → Option FileEntry
  | .file entry => some entry
  | .directory _ => none
  | .symlink _ => none

def directory? : Insertion → Option DirectoryEntry
  | .file _ => none
  | .directory entry => some entry
  | .symlink _ => none

def symlink? : Insertion → Option SymlinkEntry
  | .file _ => none
  | .directory _ => none
  | .symlink entry => some entry

end Insertion

namespace DirectoryBuilder

/-- `new` without directory metadata and `with_metadata` with it. -/
def start : Option NodeMetadata → DirectoryBuilder
  | none => new
  | some metadata => withMetadata metadata

def insert (self : DirectoryBuilder) : Insertion → Except TreeError DirectoryBuilder
  | .file entry => self.addFile entry
  | .directory entry => self.addDirectory entry
  | .symlink entry => self.addSymlink entry

/-- A sequence of calls, stopped by the first error. -/
def insertAll (self : DirectoryBuilder) : List Insertion → Except TreeError DirectoryBuilder
  | [] => .ok self
  | insertion :: insertions => do
      let builder ← self.insert insertion
      builder.insertAll insertions

def collected (self : DirectoryBuilder) (insertions : List Insertion) : DirectoryBuilder :=
  { self with
    files := self.files ++ insertions.filterMap Insertion.file?
    directories := self.directories ++ insertions.filterMap Insertion.directory?
    symlinks := self.symlinks ++ insertions.filterMap Insertion.symlink? }

theorem insert_eq_ok_iff (self builder : DirectoryBuilder) (insertion : Insertion) :
    self.insert insertion = .ok builder ↔
      ValidName insertion.name ∧ builder = self.collected [insertion] := by
  cases insertion with
  | file entry =>
      simp [insert, addFile_eq_ok_iff, collected, Insertion.name, Insertion.file?,
        Insertion.directory?, Insertion.symlink?, List.filterMap_cons]
  | directory entry =>
      simp [insert, addDirectory_eq_ok_iff, collected, Insertion.name, Insertion.file?,
        Insertion.directory?, Insertion.symlink?, List.filterMap_cons]
  | symlink entry =>
      simp [insert, addSymlink_eq_ok_iff, collected, Insertion.name, Insertion.file?,
        Insertion.directory?, Insertion.symlink?, List.filterMap_cons]

theorem collected_cons (self : DirectoryBuilder) (insertion : Insertion)
    (insertions : List Insertion) :
    (self.collected [insertion]).collected insertions =
      self.collected (insertion :: insertions) := by
  have hcons : insertion :: insertions = [insertion] ++ insertions := rfl
  simp only [collected, hcons, List.filterMap_append, List.append_assoc]

theorem insertAll_eq_ok_iff (self builder : DirectoryBuilder) (insertions : List Insertion) :
    self.insertAll insertions = .ok builder ↔
      (∀ insertion ∈ insertions, ValidName insertion.name) ∧
        builder = self.collected insertions := by
  induction insertions generalizing self with
  | nil => simp [insertAll, collected, eq_comm]
  | cons insertion insertions ih =>
      simp only [insertAll, Result.bind_eq_ok_iff, insert_eq_ok_iff, ih, List.mem_cons,
        forall_eq_or_imp]
      constructor
      · rintro ⟨next, ⟨hname, rfl⟩, hnames, rfl⟩
        exact ⟨⟨hname, hnames⟩, collected_cons self insertion insertions⟩
      · rintro ⟨⟨hname, hnames⟩, rfl⟩
        exact ⟨_, ⟨hname, rfl⟩, hnames, (collected_cons self insertion insertions).symm⟩

theorem start_collected (metadata : Option NodeMetadata) (insertions : List Insertion) :
    (start metadata).collected insertions =
      { metadata := metadata
        files := insertions.filterMap Insertion.file?
        directories := insertions.filterMap Insertion.directory?
        symlinks := insertions.filterMap Insertion.symlink? } := by
  cases metadata <;> rfl

theorem start_collected_perm {β : Type} (metadata : Option NodeMetadata)
    (insertions : List Insertion) (file : FileEntry → β) (directory : DirectoryEntry → β)
    (symlink : SymlinkEntry → β) (f : Insertion → β) (hfile : ∀ entry, f (.file entry) = file entry)
    (hdirectory : ∀ entry, f (.directory entry) = directory entry)
    (hsymlink : ∀ entry, f (.symlink entry) = symlink entry) :
    (((start metadata).collected insertions).files.map file ++
      ((start metadata).collected insertions).directories.map directory ++
        ((start metadata).collected insertions).symlinks.map symlink).Perm
      (insertions.map f) := by
  rw [start_collected]
  induction insertions with
  | nil => simp
  | cons insertion insertions ih =>
      cases insertion with
      | file entry =>
          simpa [Insertion.file?, Insertion.directory?, Insertion.symlink?, hfile,
            List.filterMap_cons] using ih
      | directory entry =>
          rw [List.map_cons, hdirectory]
          refine List.Perm.trans ?_ (List.Perm.cons _ ih)
          simp [Insertion.file?, Insertion.directory?, Insertion.symlink?, List.filterMap_cons]
      | symlink entry =>
          rw [List.map_cons, hsymlink]
          refine List.Perm.trans ?_ (List.Perm.cons _ ih)
          simp only [Insertion.file?, Insertion.directory?, Insertion.symlink?,
            List.filterMap_cons, List.map_cons]
          exact List.perm_middle

theorem start_collected_encodable_iff (metadata : Option NodeMetadata)
    (insertions : List Insertion) :
    ((start metadata).collected insertions).Encodable ↔
      (insertions.map Insertion.name).Nodup ∧
        ∀ m ∈ metadata.toList ++ insertions.map Insertion.metadata, m.TimeSupported := by
  have hnames := start_collected_perm metadata insertions FileEntry.name DirectoryEntry.name
    SymlinkEntry.name Insertion.name (fun _ => rfl) (fun _ => rfl) (fun _ => rfl)
  have hmeta := start_collected_perm metadata insertions FileEntry.metadata
    DirectoryEntry.metadata SymlinkEntry.metadata Insertion.metadata (fun _ => rfl)
    (fun _ => rfl) (fun _ => rfl)
  have hall : ((start metadata).collected insertions).allMetadata.Perm
      (metadata.toList ++ insertions.map Insertion.metadata) := by
    have hself : ((start metadata).collected insertions).metadata = metadata := by
      rw [start_collected]
    unfold allMetadata
    rw [hself, List.append_assoc, List.append_assoc]
    exact (List.Perm.refl _).append (by rw [← List.append_assoc]; exact hmeta)
  constructor
  · rintro ⟨hnodup, htimes⟩
    exact ⟨hnames.nodup_iff.mp hnodup, fun m hm => htimes m (hall.mem_iff.mpr hm)⟩
  · rintro ⟨hnodup, htimes⟩
    exact ⟨hnames.nodup_iff.mpr hnodup, fun m hm => htimes m (hall.mem_iff.mp hm)⟩

theorem canonicalDirectory_names (self : DirectoryBuilder) :
    directoryNames self.canonicalDirectory = (sortEntries self).names := by
  unfold directoryNames names canonicalDirectory sortEntries
  simp only [List.map_map]
  rfl

theorem strictlySorted_map_sortBy {α : Type} (name : α → String) (entries : List α)
    (h : (entries.map name).Nodup) :
    StrictlySorted ((sortBy (fun entry => nameKey (name entry)) entries).map name) := by
  have hkeys : (entries.map fun entry => nameKey (name entry)).Nodup := by
    have hmap := h.map nameKey_injective
    rwa [List.map_map] at hmap
  exact List.pairwise_map.mpr (sortBy_pairwise_lt _ entries hkeys)

theorem propertiesSupported (metadata : NodeMetadata) (h : metadata.TimeSupported) :
    PropertiesSupported metadata.properties := by
  intro timestamp htimestamp
  rw [NodeMetadata.properties_mtime] at htimestamp
  exact h timestamp htimestamp

theorem canonicalDirectory_wellFormed (self : DirectoryBuilder) (h : self.Encodable)
    (hvalid : ∀ name ∈ self.names, ValidName name) :
    WellFormedDirectory self.canonicalDirectory := by
  obtain ⟨htroot, htfiles, -, htlinks⟩ := (times_iff self).mp h.times
  have hnodup := List.nodup_append.mp h.names_nodup
  have hnodup' := List.nodup_append.mp hnodup.1
  have hdigest : ∀ d : Digest, DigestPresent (some d.toReapi) :=
    fun d => ⟨d.toReapi, rfl, d, d.fromReapi_toReapi⟩
  refine
    { files_sorted := ?_, directories_sorted := ?_, symlinks_sorted := ?_,
      names_nodup := ?_, names_valid := ?_, root_time := ?_, file_digest := ?_,
      file_time := ?_, directory_digest := ?_, symlink_time := ?_ }
  · simpa [canonicalDirectory, FileEntry.node, Function.comp_def] using
      strictlySorted_map_sortBy FileEntry.name self.files hnodup'.1
  · simpa [canonicalDirectory, DirectoryEntry.node, Function.comp_def] using
      strictlySorted_map_sortBy DirectoryEntry.name self.directories hnodup'.2.1
  · simpa [canonicalDirectory, SymlinkEntry.node, Function.comp_def] using
      strictlySorted_map_sortBy SymlinkEntry.name self.symlinks hnodup.2.1
  · rw [canonicalDirectory_names]
    exact (names_sortEntries_perm self).nodup_iff.mpr h.names_nodup
  · rw [canonicalDirectory_names]
    exact fun name hname => hvalid name ((names_sortEntries_perm self).mem_iff.mp hname)
  · cases hmetadata : self.metadata with
    | none => simp [canonicalDirectory, hmetadata, PropertiesSupported]
    | some metadata =>
        simpa [canonicalDirectory, hmetadata] using
          propertiesSupported metadata (htroot metadata hmetadata)
  · intro node hnode
    obtain ⟨entry, -, rfl⟩ := List.mem_map.mp hnode
    exact hdigest entry.digest
  · intro node hnode
    obtain ⟨entry, hentry, rfl⟩ := List.mem_map.mp hnode
    exact propertiesSupported _ (htfiles entry ((mem_sortBy _ _ _).mp hentry))
  · intro node hnode
    obtain ⟨entry, -, rfl⟩ := List.mem_map.mp hnode
    exact hdigest entry.digest
  · intro node hnode
    obtain ⟨entry, hentry, rfl⟩ := List.mem_map.mp hnode
    exact propertiesSupported _ (htlinks entry ((mem_sortBy _ _ _).mp hentry))

/-- The bytes of an encoded builder decode to its message. -/
theorem decodeDirectory_canonical [Sha256] [Prost] (hprost : Prost.DecodeInvertsEncode)
    (self : DirectoryBuilder) (h : self.Encodable)
    (hvalid : ∀ name ∈ self.names, ValidName name) :
    decodeDirectory self.canonical.digest self.canonical.bytes =
      .ok self.canonical.directory :=
  (decodeDirectory_eq_ok_iff _ _ _).mpr
    ⟨rfl, hprost _, canonicalDirectory_wellFormed self h hvalid⟩

end DirectoryBuilder

/-- The properties of a node are the normalized metadata of its entry. -/
structure PropertiesOf (metadata : NodeMetadata) (properties : Option NodeProperties) :
    Prop where
  absent_iff : properties = none ↔ metadata.mode = none ∧ metadata.mtime = none
  mtime : (properties.bind fun properties => properties.mtime) = metadata.mtime
  mode : (properties.bind fun properties => properties.unixMode) =
    metadata.mode.map fun mode => mode &&& metadata.kind.modeMask

structure FileNodeOf (entry : FileEntry) (node : FileNode) : Prop where
  name : node.name = entry.name
  digest : node.digest = some entry.digest.toReapi
  executable : node.isExecutable = true ↔
    (entry.metadata.mode.map fun mode => mode &&& entry.metadata.kind.modeMask).getD 0 &&&
      0o111 ≠ 0
  properties : PropertiesOf entry.metadata node.nodeProperties

structure DirectoryNodeOf (entry : DirectoryEntry) (node : DirectoryNode) : Prop where
  name : node.name = entry.name
  digest : node.digest = some entry.digest.toReapi
  properties : PropertiesOf entry.metadata node.nodeProperties

structure SymlinkNodeOf (entry : SymlinkEntry) (node : SymlinkNode) : Prop where
  name : node.name = entry.name
  target : node.target = entry.target
  properties : PropertiesOf entry.metadata node.nodeProperties

/-- The message contains the inserted entries, each once, sorted within its
kind, and the metadata of the directory. -/
structure ContainsExactly (metadata : Option NodeMetadata) (insertions : List Insertion)
    (directory : Directory) : Prop where
  files : ∃ entries : List FileEntry,
    entries.Perm (insertions.filterMap Insertion.file?) ∧
      List.Forall₂ FileNodeOf entries directory.files
  directories : ∃ entries : List DirectoryEntry,
    entries.Perm (insertions.filterMap Insertion.directory?) ∧
      List.Forall₂ DirectoryNodeOf entries directory.directories
  symlinks : ∃ entries : List SymlinkEntry,
    entries.Perm (insertions.filterMap Insertion.symlink?) ∧
      List.Forall₂ SymlinkNodeOf entries directory.symlinks
  files_sorted : StrictlySorted (directory.files.map FileNode.name)
  directories_sorted : StrictlySorted (directory.directories.map DirectoryNode.name)
  symlinks_sorted : StrictlySorted (directory.symlinks.map SymlinkNode.name)
  root_absent : metadata = none → directory.nodeProperties = none
  root_present : ∀ m, metadata = some m → PropertiesOf m directory.nodeProperties

theorem propertiesOf_properties (metadata : NodeMetadata) :
    PropertiesOf metadata metadata.properties where
  absent_iff := metadata.properties_eq_none_iff
  mtime := metadata.properties_mtime
  mode := metadata.properties_unixMode

theorem fileNodeOf_node (entry : FileEntry) : FileNodeOf entry entry.node where
  name := rfl
  digest := rfl
  executable := by
    simp only [FileEntry.node, NodeMetadata.properties_unixMode, bne_iff_ne]
  properties := propertiesOf_properties entry.metadata

theorem containsExactly_canonical (metadata : Option NodeMetadata)
    (insertions : List Insertion)
    (h : ((DirectoryBuilder.start metadata).collected insertions).Encodable)
    (hvalid : ∀ name ∈ ((DirectoryBuilder.start metadata).collected insertions).names,
      ValidName name) :
    ContainsExactly metadata insertions
      ((DirectoryBuilder.start metadata).collected insertions).canonicalDirectory := by
  have hwell := DirectoryBuilder.canonicalDirectory_wellFormed _ h hvalid
  rw [DirectoryBuilder.start_collected] at hwell ⊢
  refine
    { files := ⟨_, sortBy_perm (fun entry => nameKey entry.name) _, ?_⟩,
      directories := ⟨_, sortBy_perm (fun entry => nameKey entry.name) _, ?_⟩,
      symlinks := ⟨_, sortBy_perm (fun entry => nameKey entry.name) _, ?_⟩,
      files_sorted := hwell.files_sorted,
      directories_sorted := hwell.directories_sorted,
      symlinks_sorted := hwell.symlinks_sorted, root_absent := ?_, root_present := ?_ }
  · exact List.forall₂_map_right_iff.mpr
      (List.forall₂_same.mpr fun entry _ => fileNodeOf_node entry)
  · exact List.forall₂_map_right_iff.mpr (List.forall₂_same.mpr fun entry _ =>
      ⟨rfl, rfl, propertiesOf_properties entry.metadata⟩)
  · exact List.forall₂_map_right_iff.mpr (List.forall₂_same.mpr fun entry _ =>
      ⟨rfl, rfl, propertiesOf_properties entry.metadata⟩)
  · rintro rfl
    rfl
  · rintro m rfl
    exact propertiesOf_properties m

/-- For every sequence of accepted insertions: the decoder returns the encoded
message, which contains exactly the inserted entries, and encoding fails exactly
when two entries share a name or a time is outside the supported range. -/
theorem decodeDirectory_undoes_encode [Sha256] [Prost] (hprost : Prost.DecodeInvertsEncode)
    (metadata : Option NodeMetadata) (insertions : List Insertion)
    (builder : DirectoryBuilder)
    (hbuilder : (DirectoryBuilder.start metadata).insertAll insertions = .ok builder) :
    (∀ encoded, builder.encode = .ok encoded →
      decodeDirectory encoded.digest encoded.bytes = .ok encoded.directory ∧
        ContainsExactly metadata insertions encoded.directory) ∧
      ((∃ error, builder.encode = .error error) ↔
        ¬ (insertions.map Insertion.name).Nodup ∨
          ∃ m ∈ metadata.toList ++ insertions.map Insertion.metadata,
            ∃ timestamp, m.mtime = some timestamp ∧ ¬ SupportedTimestamp timestamp) := by
  obtain ⟨hnames, rfl⟩ := (DirectoryBuilder.insertAll_eq_ok_iff _ _ _).mp hbuilder
  have hperm := DirectoryBuilder.start_collected_perm metadata insertions FileEntry.name
    DirectoryEntry.name SymlinkEntry.name Insertion.name (fun _ => rfl) (fun _ => rfl)
    (fun _ => rfl)
  have hvalid : ∀ name ∈ ((DirectoryBuilder.start metadata).collected insertions).names,
      ValidName name := by
    intro name hname
    obtain ⟨insertion, hinsertion, rfl⟩ := List.mem_map.mp (hperm.mem_iff.mp hname)
    exact hnames insertion hinsertion
  refine ⟨?_, ?_⟩
  · intro encoded hencoded
    obtain ⟨hencodable, rfl⟩ := (DirectoryBuilder.encode_eq_ok_iff _ _).mp hencoded
    exact ⟨DirectoryBuilder.decodeDirectory_canonical hprost _ hencodable hvalid,
      containsExactly_canonical metadata insertions hencodable hvalid⟩
  · have herror : (∃ error, ((DirectoryBuilder.start metadata).collected insertions).encode =
        .error error) ↔ ¬ ((DirectoryBuilder.start metadata).collected insertions).Encodable := by
      constructor
      · rintro ⟨error, herror⟩ hencodable
        rw [(DirectoryBuilder.encode_eq_ok_iff _ _).mpr ⟨hencodable, rfl⟩] at herror
        cases herror
      · intro hnot
        cases hencode : ((DirectoryBuilder.start metadata).collected insertions).encode with
        | error error => exact ⟨error, rfl⟩
        | ok encoded =>
            exact absurd ((DirectoryBuilder.encode_eq_ok_iff _ _).mp hencode).1 hnot
    rw [herror, DirectoryBuilder.start_collected_encodable_iff, not_and_or]
    simp only [NodeMetadata.TimeSupported, Option.mem_def, not_forall, exists_prop]

namespace Sample

/-- SHA-256 on the blobs of a sample; the other values play no role. -/
@[reducible] def sha256 (blobs : List (Bytes × Vector UInt8 32)) : Sha256 where
  digest bytes := (blobs.lookup bytes).getD (Vector.replicate 32 0)

def content : Bytes := [104, 105]

def contentDigest : Digest :=
  Digest.Sample.contentDigest

/-- The root directory: mode 0755, seven seconds after the epoch. -/
def rootMetadata : NodeMetadata where
  mode := some 0o755
  mtime := some ⟨7, 0⟩
  kind := .directory

/-- The file `a`: mode 0755, five nanoseconds into the last second before the
epoch. -/
def fileEntry : FileEntry where
  name := "a"
  digest := contentDigest
  metadata := { mode := some 0o755, mtime := some ⟨-1, 5⟩, kind := .file }

/-- The message of the directory that contains the file. -/
def directory : Directory where
  files :=
    [{ name := "a", digest := some ⟨contentDigest.hash, 2⟩, isExecutable := true,
       nodeProperties := some ⟨[], some ⟨-1, 5⟩, some 0o755⟩ }]
  directories := []
  symlinks := []
  nodeProperties := some ⟨[], some ⟨7, 0⟩, some 0o755⟩

def bytes : Bytes :=
  [10, 97, 10, 1, 97, 18, 68, 10, 64, 56, 102, 52, 51, 52, 51, 52, 54, 54, 52, 56, 102, 54,
    98, 57, 54, 100, 102, 56, 57, 100, 100, 97, 57, 48, 49, 99, 53, 49, 55, 54, 98, 49, 48,
    97, 54, 100, 56, 51, 57, 54, 49, 100, 100, 51, 99, 49, 97, 99, 56, 56, 98, 53, 57, 98,
    50, 100, 99, 51, 50, 55, 97, 97, 52, 16, 2, 32, 1, 50, 20, 18, 13, 8, 255, 255, 255,
    255, 255, 255, 255, 255, 255, 1, 16, 5, 26, 3, 8, 237, 3, 42, 9, 18, 2, 8, 7, 26, 3, 8,
    237, 3]

def directoryDigest : Digest where
  hash := "99fade495f0b1054b8dcb5280df88617ff1e3d5cbe00d616f4c7a19d0b0ae12d"
  sizeBytes := 110
  hash_valid := ⟨by decide, by decide⟩
  size_le := by decide

/-- The SHA-256 values of the content and of the encoded directory. -/
def blobs : List (Bytes × Vector UInt8 32) :=
  [(content, Digest.Sample.contentHash),
    (bytes, #v[153, 250, 222, 73, 95, 11, 16, 84, 184, 220, 181, 40, 13, 248, 134, 23, 255,
      30, 61, 92, 190, 0, 214, 22, 244, 199, 161, 157, 11, 10, 225, 45])]

def messages : List (Directory × Bytes) :=
  [(directory, bytes)]

def otherContent : Bytes := [121, 111]

def otherDigest : Digest where
  hash := "e9058ab198f6908f702111b0c0fb5b36f99d00554521886c40e2891b349dc7a1"
  sizeBytes := 2
  hash_valid := ⟨by decide, by decide⟩
  size_le := contentDigest.size_le

/-- The message of a directory whose only file `b` has this content. -/
def inner : Directory where
  files :=
    [{ name := "b", digest := some ⟨otherDigest.hash, 2⟩, isExecutable := false,
       nodeProperties := some ⟨[], some ⟨8, 0⟩, some 0o644⟩ }]
  directories := []
  symlinks := []
  nodeProperties := some ⟨[], some ⟨9, 0⟩, some 0o755⟩

def innerBytes : Bytes :=
  [10, 84, 10, 1, 98, 18, 68, 10, 64, 101, 57, 48, 53, 56, 97, 98, 49, 57, 56, 102, 54, 57,
    48, 56, 102, 55, 48, 50, 49, 49, 49, 98, 48, 99, 48, 102, 98, 53, 98, 51, 54, 102, 57,
    57, 100, 48, 48, 53, 53, 52, 53, 50, 49, 56, 56, 54, 99, 52, 48, 101, 50, 56, 57, 49,
    98, 51, 52, 57, 100, 99, 55, 97, 49, 16, 2, 50, 9, 18, 2, 8, 8, 26, 3, 8, 164, 3, 42, 9,
    18, 2, 8, 9, 26, 3, 8, 237, 3]

def innerDigest : Digest where
  hash := "0a6d597223f87cda747cd53f243b5effa0c0cb91568d21115ba2f47feae3c264"
  sizeBytes := 97
  hash_valid := ⟨by decide, by decide⟩
  size_le := by decide

def otherEntry : FileEntry where
  name := "z"
  digest := otherDigest
  metadata := { mode := some 0o644, mtime := some ⟨8, 0⟩, kind := .file }

def innerEntry : DirectoryEntry where
  name := "d"
  digest := innerDigest
  metadata := { mode := some 0o755, mtime := some ⟨9, 0⟩, kind := .directory }

def linkEntry : SymlinkEntry where
  name := "l"
  target := "d/b"
  metadata := { mode := some 0o777, mtime := some ⟨7, 0⟩, kind := .symlink }

/-- The message of a root with two files, the directory and a symlink to its file. -/
def nested : Directory where
  files :=
    [{ name := "a", digest := some ⟨contentDigest.hash, 2⟩, isExecutable := true,
       nodeProperties := some ⟨[], some ⟨-1, 5⟩, some 0o755⟩ },
     { name := "z", digest := some ⟨otherDigest.hash, 2⟩, isExecutable := false,
       nodeProperties := some ⟨[], some ⟨8, 0⟩, some 0o644⟩ }]
  directories :=
    [{ name := "d", digest := some ⟨innerDigest.hash, 97⟩,
       nodeProperties := some ⟨[], some ⟨9, 0⟩, some 0o755⟩ }]
  symlinks :=
    [{ name := "l", target := "d/b", nodeProperties := some ⟨[], some ⟨7, 0⟩, some 0o777⟩ }]
  nodeProperties := some ⟨[], some ⟨7, 0⟩, some 0o755⟩

def nestedBytes : Bytes :=
  [10, 97, 10, 1, 97, 18, 68, 10, 64, 56, 102, 52, 51, 52, 51, 52, 54, 54, 52, 56, 102, 54,
    98, 57, 54, 100, 102, 56, 57, 100, 100, 97, 57, 48, 49, 99, 53, 49, 55, 54, 98, 49, 48,
    97, 54, 100, 56, 51, 57, 54, 49, 100, 100, 51, 99, 49, 97, 99, 56, 56, 98, 53, 57, 98,
    50, 100, 99, 51, 50, 55, 97, 97, 52, 16, 2, 32, 1, 50, 20, 18, 13, 8, 255, 255, 255,
    255, 255, 255, 255, 255, 255, 1, 16, 5, 26, 3, 8, 237, 3, 10, 84, 10, 1, 122, 18, 68,
    10, 64, 101, 57, 48, 53, 56, 97, 98, 49, 57, 56, 102, 54, 57, 48, 56, 102, 55, 48, 50,
    49, 49, 49, 98, 48, 99, 48, 102, 98, 53, 98, 51, 54, 102, 57, 57, 100, 48, 48, 53, 53,
    52, 53, 50, 49, 56, 56, 54, 99, 52, 48, 101, 50, 56, 57, 49, 98, 51, 52, 57, 100, 99,
    55, 97, 49, 16, 2, 50, 9, 18, 2, 8, 8, 26, 3, 8, 164, 3, 18, 84, 10, 1, 100, 18, 68, 10,
    64, 48, 97, 54, 100, 53, 57, 55, 50, 50, 51, 102, 56, 55, 99, 100, 97, 55, 52, 55, 99,
    100, 53, 51, 102, 50, 52, 51, 98, 53, 101, 102, 102, 97, 48, 99, 48, 99, 98, 57, 49, 53,
    54, 56, 100, 50, 49, 49, 49, 53, 98, 97, 50, 102, 52, 55, 102, 101, 97, 101, 51, 99, 50,
    54, 52, 16, 97, 26, 9, 18, 2, 8, 9, 26, 3, 8, 237, 3, 26, 19, 10, 1, 108, 18, 3, 100,
    47, 98, 34, 9, 18, 2, 8, 7, 26, 3, 8, 255, 3, 42, 9, 18, 2, 8, 7, 26, 3, 8, 237, 3]

def nestedDigest : Digest where
  hash := "adeb4961ba9455e1b68de2b2ccc5622dd408a0cb64956e1c97a3637488cd63cd"
  sizeBytes := 303
  hash_valid := ⟨by decide, by decide⟩
  size_le := by decide

/-- The SHA-256 values of the contents and of the encoded directories. -/
def nestedBlobs : List (Bytes × Vector UInt8 32) :=
  [(content, Digest.Sample.contentHash),
    (otherContent, #v[233, 5, 138, 177, 152, 246, 144, 143, 112, 33, 17, 176, 192, 251, 91, 54,
      249, 157, 0, 85, 69, 33, 136, 108, 64, 226, 137, 27, 52, 157, 199, 161]),
    (innerBytes, #v[10, 109, 89, 114, 35, 248, 124, 218, 116, 124, 213, 63, 36, 59, 94, 255, 160,
      192, 203, 145, 86, 141, 33, 17, 91, 162, 244, 127, 234, 227, 194, 100]),
    (nestedBytes, #v[173, 235, 73, 97, 186, 148, 85, 225, 182, 141, 226, 178, 204, 197, 98, 45,
      212, 8, 160, 203, 100, 149, 110, 28, 151, 163, 99, 116, 136, 205, 99, 205])]

def nestedMessages : List (Directory × Bytes) :=
  [(inner, innerBytes), (nested, nestedBytes)]

theorem prescribes_messages : Prost.Prescribes messages where
  bytes_nodup := List.nodup_singleton _
  head_ne := by
    intro sample hsample
    rw [List.mem_singleton.mp hsample]
    decide

theorem prescribes_nestedMessages : Prost.Prescribes nestedMessages where
  bytes_nodup := by decide
  head_ne := by decide

theorem forBytes_nestedBytes : @Digest.forBytes (sha256 nestedBlobs) nestedBytes =
    nestedDigest := by
  decide +kernel

/-- The entries of the root, not in the order of its message. -/
def nestedInsertions : List Insertion :=
  [.symlink linkEntry, .file otherEntry, .directory innerEntry, .file fileEntry]

def nestedBuilder : DirectoryBuilder where
  metadata := some rootMetadata
  files := [otherEntry, fileEntry]
  directories := [innerEntry]
  symlinks := [linkEntry]

theorem nestedBuilder_encodable : nestedBuilder.Encodable :=
  ⟨by decide, by decide⟩

theorem nestedBuilder_canonicalDirectory : nestedBuilder.canonicalDirectory = nested := by
  decide

end Sample

/-- The theorem at a root with entries of the three kinds, with the bytes and hashes protobuf
and SHA-256 give it. -/
theorem decodeDirectory_undoes_encode_sample :
    letI : Sha256 := Sample.sha256 Sample.nestedBlobs
    letI : Prost := Prost.prescribed Sample.nestedMessages
    decodeDirectory Sample.nestedDigest Sample.nestedBytes = .ok Sample.nested ∧
      ContainsExactly (some Sample.rootMetadata) Sample.nestedInsertions Sample.nested := by
  let _ : Sha256 := Sample.sha256 Sample.nestedBlobs
  let _ : Prost := Prost.prescribed Sample.nestedMessages
  have hdirectory := Sample.nestedBuilder_canonicalDirectory
  have hbytes : Sample.nestedBuilder.canonical.bytes = Sample.nestedBytes :=
    Prost.prescribed_encodeToVec (hdirectory ▸ rfl)
  have hdigest : Sample.nestedBuilder.canonical.digest = Sample.nestedDigest := by
    exact (congrArg Digest.forBytes hbytes).trans Sample.forBytes_nestedBytes
  have h := (decodeDirectory_undoes_encode
    Sample.prescribes_nestedMessages.decodeInvertsEncode
    (some Sample.rootMetadata) Sample.nestedInsertions Sample.nestedBuilder rfl).1
    Sample.nestedBuilder.canonical
    ((DirectoryBuilder.encode_eq_ok_iff _ _).mpr ⟨Sample.nestedBuilder_encodable, rfl⟩)
  rw [hbytes, hdigest] at h
  exact hdirectory ▸ h

end Tree

end RemoteFs
