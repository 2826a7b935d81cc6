import RemoteFs.Session.Mountable
import RemoteFs.Upload.EncodeSpec

/-!
# The snapshot of an uploaded tree

`Mounts` relates an entry of an encoded directory to the remote node it becomes when
the directory is mounted. Every directory the encoder makes is mountable, and its
children are its entries.

For a local tree the store has to hold the encoded directories under their digests. Then
the snapshot below the Merkle digest of a directory has one child for each entry of the
directory that can be uploaded.
-/

namespace RemoteFs

namespace Session

open SortBy
open RemoteFs.Tree (NodeKind ValidName Insertion DirectoryBuilder NodeMetadata FileEntry
  DirectoryEntry SymlinkEntry decodeDirectory PropertiesSupported WellFormedDirectory)

def entryContent : Insertion → RemoteContent
  | .file entry => .file entry.digest
  | .directory entry => .directory entry.digest
  | .symlink entry => .symlink entry.target

/-- A remote node is an entry of a directory, mounted. -/
structure Mounts (insertion : Insertion) (child : NewRemoteInode) : Prop where
  name : child.name = insertion.name
  mode : child.mode =
    insertion.metadata.mode.map fun mode => mode &&& insertion.metadata.kind.modeMask
  mtime : Option.Rel TimeOf insertion.metadata.mtime child.mtime
  content : child.content = entryContent insertion

theorem mounts_of_nodeOf {insertion : Insertion} {child : NewRemoteInode}
    (h : NodeOf insertion.name insertion.metadata.properties (entryContent insertion) child) :
    Mounts insertion child where
  name := h.name
  mode := by rw [h.metadata.mode, NodeMetadata.properties_unixMode]
  mtime := by
    have hmtime := h.metadata.mtime
    rwa [NodeMetadata.properties_mtime] at hmtime
  content := h.content

theorem mounts_of_remoteChild {kind : String} (insertion : Insertion) {digest : Digest}
    {content : Digest → RemoteContent} {child : NewRemoteInode}
    (hcontent : entryContent insertion = content digest)
    (h : remoteChild kind insertion.name (some digest.toReapi) insertion.metadata.properties
      content = .ok child) : Mounts insertion child := by
  obtain ⟨-, wire, d, hwire, hd, hof⟩ := (remoteChild_eq_ok_iff _ _ _ _ _ _).mp h
  cases hwire
  rw [Digest.fromReapi_toReapi] at hd
  cases hd
  rw [← hcontent] at hof
  exact mounts_of_nodeOf hof

theorem mounts_of_symlinkChild {entry : SymlinkEntry} {child : NewRemoteInode}
    (h : symlinkChild entry.node = .ok child) : Mounts (.symlink entry) child := by
  obtain ⟨-, hof⟩ := (symlinkChild_eq_ok_iff _ _).mp h
  exact mounts_of_nodeOf hof

theorem forall₂_mounts {α β : Type} {translate : β → Except SessionError NewRemoteInode}
    {node : α → β} {insertion : α → Insertion}
    (h : ∀ entry child, translate (node entry) = .ok child → Mounts (insertion entry) child)
    {entries : List α} {children : List NewRemoteInode}
    (hmap : (entries.map node).mapM translate = .ok children) :
    List.Forall₂ Mounts (entries.map insertion) children := by
  have hrel := (Result.mapM_eq_ok_iff _ _ _).mp hmap
  rw [List.forall₂_map_left_iff] at hrel ⊢
  exact hrel.imp fun {entry child} hchild => h entry child hchild

/-! ### Canonical directories -/

theorem modeAdmitted_properties (metadata : NodeMetadata) :
    ModeAdmitted metadata.properties := by
  intro mode hmode
  rw [NodeMetadata.properties_unixMode, Option.mem_def, Option.map_eq_some_iff] at hmode
  obtain ⟨unmasked, -, rfl⟩ := hmode
  have hmask : metadata.kind.modeMask ≤ 0o7777 := by cases metadata.kind <;> decide
  exact UInt32.le_trans UInt32.and_le_right hmask

theorem mountable_canonical {builder : DirectoryBuilder} (h : builder.Encodable)
    (hvalid : ∀ name ∈ builder.names, ValidName name) :
    Mountable builder.canonicalDirectory := by
  have hwell := builder.canonicalDirectory_wellFormed h hvalid
  obtain ⟨-, -, hdirectories, -⟩ := (DirectoryBuilder.times_iff builder).mp h.times
  refine (mountable_iff hwell).mpr ⟨?_, ?_, ?_, ?_⟩
  · intro node hnode
    obtain ⟨entry, hentry, rfl⟩ := List.mem_map.mp hnode
    exact DirectoryBuilder.propertiesSupported _
      (hdirectories entry ((mem_sortBy _ _ _).mp hentry))
  · intro node hnode
    obtain ⟨entry, -, rfl⟩ := List.mem_map.mp hnode
    exact modeAdmitted_properties entry.metadata
  · intro node hnode
    obtain ⟨entry, -, rfl⟩ := List.mem_map.mp hnode
    exact modeAdmitted_properties entry.metadata
  · intro node hnode
    obtain ⟨entry, -, rfl⟩ := List.mem_map.mp hnode
    exact modeAdmitted_properties entry.metadata

theorem children_canonical {metadata : Option NodeMetadata} {insertions : List Insertion}
    (h : ((DirectoryBuilder.start metadata).collected insertions).Encodable)
    (hvalid : ∀ insertion ∈ insertions, ValidName insertion.name) :
    ∃ children order,
      decodedDirectoryChildren
          ((DirectoryBuilder.start metadata).collected insertions).canonicalDirectory =
        .ok children ∧
      ValidChildren children ∧ order.Perm insertions ∧
      List.Forall₂ Mounts order children := by
  have hnames := DirectoryBuilder.start_collected_perm metadata insertions FileEntry.name
    DirectoryEntry.name SymlinkEntry.name Insertion.name (fun _ => rfl) (fun _ => rfl)
    (fun _ => rfl)
  have hentries := DirectoryBuilder.start_collected_perm metadata insertions Insertion.file
    Insertion.directory Insertion.symlink id (fun _ => rfl) (fun _ => rfl) (fun _ => rfl)
  rw [List.map_id] at hentries
  have hbuilderValid :
      ∀ name ∈ ((DirectoryBuilder.start metadata).collected insertions).names,
        ValidName name := by
    intro name hname
    obtain ⟨insertion, hinsertion, rfl⟩ := List.mem_map.mp (hnames.mem_iff.mp hname)
    exact hvalid insertion hinsertion
  obtain ⟨children, hchildren, hcheck⟩ := mountable_canonical h hbuilderValid
  obtain ⟨files, directories, symlinks, hfiles, hdirectories, hsymlinks, rfl⟩ :=
    (decodedDirectoryChildren_eq_ok_iff _ _).mp hchildren
  have hfile : ∀ (entry : FileEntry) child, fileChild entry.node = .ok child →
      Mounts (.file entry) child :=
    fun entry child hchild => mounts_of_remoteChild (.file entry) rfl hchild
  have hdirectory : ∀ (entry : DirectoryEntry) child, directoryChild entry.node = .ok child →
      Mounts (.directory entry) child :=
    fun entry child hchild => mounts_of_remoteChild (.directory entry) rfl hchild
  refine ⟨_, _, hchildren, (validateRemoteChildren_eq_ok_iff _).mp hcheck, ?_,
    List.rel_append (List.rel_append (forall₂_mounts hfile hfiles)
      (forall₂_mounts hdirectory hdirectories))
      (forall₂_mounts (fun _ _ => mounts_of_symlinkChild) hsymlinks)⟩
  refine List.Perm.trans ?_ hentries
  exact (((sortBy_perm _ _).map _).append ((sortBy_perm _ _).map _)).append
    ((sortBy_perm _ _).map _)

/-! ### Local trees -/

section Local

variable [Sha256] [Prost]

open RemoteFs.Upload (LocalNode Metadata UploadOptions Uploadable insertionOf merkle
  merkleEntries merkleEntries_eq encodedDirectory directoryBuilder_encodable
  uploadable_directory_iff insertionOf_name merkle_directory metadataFor)

omit [Sha256] [Prost] in
theorem insertionOf_validName {options : UploadOptions} {metadata : Metadata}
    {listing : Option IoError} {entries : List (OsStr × LocalNode)}
    (h : Uploadable options (.directory metadata listing entries))
    {entry : OsStr × LocalNode} (hentry : entry ∈ entries) {digest : Digest}
    {insertion : Insertion} (hinsertion : insertionOf entry.1 entry.2 digest = some insertion) :
    ValidName insertion.name := by
  obtain ⟨-, -, -, hentries⟩ := (uploadable_directory_iff options _ _ _).mp h
  obtain ⟨text, htext, hvalid⟩ := (hentries entry hentry).1
  rw [insertionOf_name _ _ _ _ hinsertion, htext]
  exact hvalid

theorem merkleEntries_validName {options : UploadOptions} {metadata : Metadata}
    {listing : Option IoError} {entries : List (OsStr × LocalNode)}
    (h : Uploadable options (.directory metadata listing entries)) :
    ∀ insertion ∈ merkleEntries entries, ValidName insertion.name := by
  intro insertion hinsertion
  rw [merkleEntries_eq] at hinsertion
  obtain ⟨entry, hentry, hinsertion⟩ := List.mem_filterMap.mp hinsertion
  exact insertionOf_validName h hentry hinsertion

/-- The bytes of an encoded directory of a tree decode to its message. -/
theorem decodeDirectory_encodedDirectory (hprost : Prost.DecodeInvertsEncode)
    {options : UploadOptions} {metadata : Metadata} {listing : Option IoError}
    {entries : List (OsStr × LocalNode)}
    (h : Uploadable options (.directory metadata listing entries)) :
    decodeDirectory (encodedDirectory metadata entries).digest
        (encodedDirectory metadata entries).bytes =
      .ok (encodedDirectory metadata entries).directory := by
  refine DirectoryBuilder.decodeDirectory_canonical hprost _
    (directoryBuilder_encodable options metadata listing entries h) ?_
  intro name hname
  have hnames := DirectoryBuilder.start_collected_perm
    (some (metadataFor .directory metadata)) (merkleEntries entries) FileEntry.name
    DirectoryEntry.name SymlinkEntry.name Insertion.name (fun _ => rfl) (fun _ => rfl)
    (fun _ => rfl)
  obtain ⟨insertion, hinsertion, rfl⟩ := List.mem_map.mp (hnames.mem_iff.mp hname)
  exact merkleEntries_validName h insertion hinsertion

/-- The store holds the encoded directories of a tree under their digests. -/
def HoldsDirectories (content : Digest → Option Bytes) (tree : LocalNode) : Prop :=
  ∀ directory ∈ tree.directories,
    content (encodedDirectory directory.2.1 directory.2.2).digest =
      some (encodedDirectory directory.2.1 directory.2.2).bytes

/-- A remote node is a node of a local tree under a name. -/
def Depicts (name : OsStr) (node : LocalNode) (remote : NewRemoteInode) : Prop :=
  ∃ insertion, insertionOf name node (merkle node) = some insertion ∧ Mounts insertion remote

variable {content : Digest → Option Bytes} {options : UploadOptions} {tree : LocalNode}
  (hprost : Prost.DecodeInvertsEncode) (htree : Uploadable options tree)
  (hcontent : HoldsDirectories content tree)

include hprost htree hcontent

/-- The snapshot below a directory of the tree: its children are the entries of the
directory that can be uploaded. -/
theorem snapshotChildren_merkle {path : PathBuf} {metadata : Metadata}
    {listing : Option IoError} {entries : List (OsStr × LocalNode)}
    (hwalk : (path, .directory metadata listing entries) ∈ LocalNode.walk [] tree) :
    ∃ children,
      snapshotChildren content (merkle (.directory metadata listing entries)) = some children ∧
      ValidChildren children ∧
      (children.map NewRemoteInode.name).Perm ((merkleEntries entries).map Insertion.name) ∧
      (∀ child ∈ children, ∃ entry ∈ entries, Depicts entry.1 entry.2 child) ∧
      ∀ entry ∈ entries, ∀ insertion,
        insertionOf entry.1 entry.2 (merkle entry.2) = some insertion →
        ∃ child ∈ children, Mounts insertion child := by
  have hup := LocalNode.uploadable_of_mem_walk options tree htree [] _ hwalk
  obtain ⟨children, order, hdecoded, hvalid, hperm, hmounts⟩ := children_canonical
    (directoryBuilder_encodable options metadata listing entries hup)
    (merkleEntries_validName hup)
  have hheld := hcontent (path, metadata, entries)
    ((tree.mem_directories_iff _).mpr ⟨listing, hwalk⟩)
  have hdecode := decodeDirectory_encodedDirectory hprost hup
  have hnames : children.map NewRemoteInode.name = order.map Insertion.name := by
    rw [← List.forall₂_eq_eq_eq, List.forall₂_map_left_iff, List.forall₂_map_right_iff]
    exact hmounts.flip.imp fun {child insertion} hmount => hmount.name
  refine ⟨children, ?_, hvalid, hnames ▸ hperm.map Insertion.name, ?_, ?_⟩
  · rw [merkle_directory, snapshotChildren, hheld, Option.bind_some, hdecode]
    change (decodedDirectoryChildren (encodedDirectory metadata entries).directory).toOption = _
    rw [show decodedDirectoryChildren (encodedDirectory metadata entries).directory =
      .ok children from hdecoded]
    rfl
  · intro child hchild
    obtain ⟨insertion, hinsertion, hmount⟩ :=
      Result.exists_of_forall₂_of_mem hmounts.flip hchild
    rw [hperm.mem_iff, merkleEntries_eq] at hinsertion
    obtain ⟨entry, hentry, hinsertion⟩ := List.mem_filterMap.mp hinsertion
    exact ⟨entry, hentry, insertion, hinsertion, hmount⟩
  · intro entry hentry insertion hinsertion
    refine Result.exists_of_forall₂_of_mem hmounts ?_
    rw [hperm.mem_iff, merkleEntries_eq]
    exact List.mem_filterMap.mpr ⟨entry, hentry, hinsertion⟩

end Local

end Session

end RemoteFs
