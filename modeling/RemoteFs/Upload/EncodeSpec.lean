import RemoteFs.Upload.Merkle

/-!
# The encoder computes the Merkle digest

The encoder goes through the scanned directories deepest first. Its invariant is
about the directories that are still to come: every other directory of the tree
has its Merkle digest in the map. A child lies one level below its parent, so
when the parent is reached the child is no longer to come.
-/

namespace RemoteFs

namespace Upload

open SortBy RemoteFs.Tree

namespace LocalNode

theorem prefix_of_mem_walk (node : LocalNode) :
    ∀ path, ∀ item ∈ walk path node, path <+: item.1 := by
  induction node with
  | directory metadata listing entries ih =>
      intro path item hitem
      rw [walk, List.mem_cons, walkEntries_eq, List.mem_flatMap] at hitem
      rcases hitem with rfl | ⟨entry, hentry, hitem⟩
      · exact List.prefix_rfl
      · exact (List.prefix_append path [entry.1]).trans (ih entry hentry _ item hitem)
  | leaf node hleaf =>
      intro path item hitem
      rw [walk_leaf path node hleaf, List.mem_singleton] at hitem
      rw [hitem]

theorem child_mem_walk (node : LocalNode) :
    ∀ path, ∀ item ∈ walk path node, ∀ metadata listing entries,
      item.2 = .directory metadata listing entries → ∀ entry ∈ entries,
        (PathBuf.join item.1 entry.1, entry.2) ∈ walk path node := by
  induction node with
  | directory metadata listing entries ih =>
      intro path item hitem metadata' listing' entries' hdirectory child hchild
      rw [walk, List.mem_cons, walkEntries_eq, List.mem_flatMap] at hitem ⊢
      right
      rcases hitem with rfl | ⟨entry, hentry, hitem⟩
      · cases hdirectory
        exact ⟨child, hchild, self_mem_walk _ child.2⟩
      · exact ⟨entry, hentry, ih entry hentry _ item hitem metadata' listing' entries'
          hdirectory child hchild⟩
  | leaf node hleaf =>
      intro path item hitem metadata listing entries hdirectory
      rw [walk_leaf path node hleaf, List.mem_singleton] at hitem
      rw [hitem] at hdirectory
      exact absurd hdirectory (hleaf metadata listing entries)

theorem uploadable_of_mem_walk (options : UploadOptions) (node : LocalNode)
    (h : Uploadable options node) :
    ∀ path, ∀ item ∈ walk path node, Uploadable options item.2 := by
  induction node with
  | directory metadata listing entries ih =>
      intro path item hitem
      obtain ⟨-, -, -, hentries⟩ := (uploadable_directory_iff options _ _ _).mp h
      rw [walk, List.mem_cons, walkEntries_eq, List.mem_flatMap] at hitem
      rcases hitem with rfl | ⟨entry, hentry, hitem⟩
      · exact h
      · exact ih entry hentry (hentries entry hentry).2 _ item hitem
  | leaf node hleaf =>
      intro path item hitem
      rw [walk_leaf path node hleaf, List.mem_singleton] at hitem
      rwa [hitem]

theorem walk_paths_nodup (options : UploadOptions) (node : LocalNode)
    (h : Uploadable options node) : ∀ path, ((walk path node).map Prod.fst).Nodup := by
  induction node with
  | directory metadata listing entries ih =>
      intro path
      obtain ⟨-, -, hnames, hentries⟩ := (uploadable_directory_iff options _ _ _).mp h
      rw [walk, walkEntries_eq, List.map_cons, List.nodup_cons]
      constructor
      · intro hmem
        obtain ⟨item, hitem, hpath⟩ := List.mem_map.mp hmem
        obtain ⟨entry, -, hitem⟩ := List.mem_flatMap.mp hitem
        have hlength := (prefix_of_mem_walk entry.2 _ item hitem).length_le
        rw [hpath] at hlength
        simp [PathBuf.join] at hlength
      · rw [List.map_flatMap, List.nodup_flatMap]
        refine ⟨fun entry hentry => ih entry hentry (hentries entry hentry).2 _, ?_⟩
        refine (List.pairwise_map.mp hnames).imp ?_
        intro left right hne p hleft hright
        obtain ⟨item, hitem, rfl⟩ := List.mem_map.mp hleft
        obtain ⟨item', hitem', hpath⟩ := List.mem_map.mp hright
        have hprefix := prefix_of_mem_walk left.2 _ item hitem
        have hprefix' := prefix_of_mem_walk right.2 _ item' hitem'
        rw [hpath] at hprefix'
        have heq := List.prefix_of_prefix_length_le hprefix hprefix' (by simp [PathBuf.join])
        simp only [PathBuf.join, List.prefix_append_right_inj] at heq
        simp only [List.cons_prefix_cons, List.nil_prefix, and_true] at heq
        exact hne heq
  | leaf node hleaf =>
      intro path
      rw [walk_leaf path node hleaf]
      exact List.nodup_singleton path

/-- A directory of the tree: its path, its metadata and its entries. -/
abbrev WalkedDirectory := PathBuf × Metadata × List (OsStr × LocalNode)

def directory? : PathBuf × LocalNode → Option WalkedDirectory
  | (path, .directory metadata _ entries) => some (path, metadata, entries)
  | (_, .file _ _) => none
  | (_, .symlink _ _) => none
  | (_, .special _ _) => none
  | (_, .unreadable _) => none

def directories (node : LocalNode) : List WalkedDirectory :=
  (walk [] node).filterMap directory?

theorem mem_directories_iff (node : LocalNode) (directory : WalkedDirectory) :
    directory ∈ node.directories ↔ ∃ listing,
      (directory.1, .directory directory.2.1 listing directory.2.2) ∈ walk [] node := by
  unfold directories
  rw [List.mem_filterMap]
  constructor
  · rintro ⟨⟨path, item⟩, hitem, hdirectory⟩
    cases item <;> cases hdirectory
    exact ⟨_, hitem⟩
  · rintro ⟨listing, hmem⟩
    exact ⟨_, hmem, rfl⟩

theorem filterMap_localDirectory (root : PathBuf) (items : List (PathBuf × LocalNode)) :
    items.filterMap (localDirectory? root) =
      (items.filterMap directory?).map fun directory =>
        localDirectory root directory.1 directory.2.1 directory.2.2 := by
  rw [List.map_filterMap]
  refine List.filterMap_congr ?_
  rintro ⟨path, item⟩ -
  cases item <;> rfl

theorem directories_paths_nodup (options : UploadOptions) (node : LocalNode)
    (h : Uploadable options node) : (node.directories.map Prod.fst).Nodup := by
  refine List.pairwise_map.mpr
    ((List.pairwise_map.mp (walk_paths_nodup options node h [])).filterMap _ ?_)
  rintro ⟨path, item⟩ ⟨path', item'⟩ hne directory hdirectory directory' hdirectory'
  cases item <;> cases hdirectory
  cases item' <;> cases hdirectory'
  exact hne

/-- A file of the tree: its path, its metadata and its content. -/
abbrev WalkedFile := PathBuf × Metadata × Bytes

def file? : PathBuf × LocalNode → Option WalkedFile
  | (path, .file metadata content) => some (path, metadata, content)
  | (_, .directory _ _ _) => none
  | (_, .symlink _ _) => none
  | (_, .special _ _) => none
  | (_, .unreadable _) => none

def files (node : LocalNode) : List WalkedFile :=
  (walk [] node).filterMap file?

theorem mem_files_iff (node : LocalNode) (file : WalkedFile) :
    file ∈ node.files ↔ (file.1, .file file.2.1 file.2.2) ∈ walk [] node := by
  unfold files
  rw [List.mem_filterMap]
  constructor
  · rintro ⟨⟨path, item⟩, hitem, hfile⟩
    cases item <;> cases hfile
    exact hitem
  · intro hmem
    exact ⟨_, hmem, rfl⟩

theorem filterMap_localFile (root : PathBuf) (items : List (PathBuf × LocalNode)) :
    items.filterMap (localFile? root) =
      (items.filterMap file?).map fun file => localFile root file.1 file.2.1 := by
  rw [List.map_filterMap]
  refine List.filterMap_congr ?_
  rintro ⟨path, item⟩ -
  cases item <;> rfl

theorem files_paths_nodup (options : UploadOptions) (node : LocalNode)
    (h : Uploadable options node) : (node.files.map Prod.fst).Nodup := by
  refine List.pairwise_map.mpr
    ((List.pairwise_map.mp (walk_paths_nodup options node h [])).filterMap _ ?_)
  rintro ⟨path, item⟩ ⟨path', item'⟩ hne file hfile file' hfile'
  cases item <;> cases hfile
  cases item' <;> cases hfile'
  exact hne

end LocalNode

theorem Metadata.TimeSupported.toInt_nsec {metadata : Metadata}
    (h : metadata.TimeSupported) :
    (0 ≤ metadata.mtimeNsec.toInt ∧ metadata.mtimeNsec.toInt ≤ 999999999) ∧
      metadata.mtimeNsec.toInt32.toInt = metadata.mtimeNsec.toInt := by
  have hnonneg := Int64.le_iff_toInt_le.mp h.nsec_nonneg
  have hle := Int64.le_iff_toInt_le.mp h.nsec_le
  have hzero : (0 : Int64).toInt = 0 := by decide
  have hmax : (999999999 : Int64).toInt = 999999999 := by decide
  rw [hzero] at hnonneg
  rw [hmax] at hle
  refine ⟨⟨hnonneg, hle⟩, ?_⟩
  rw [Int64.toInt_toInt32]
  exact Int.bmod_eq_of_le (by omega) (by omega)

theorem metadataFor_timeSupported (kind : NodeKind) (metadata : Metadata)
    (h : metadata.TimeSupported) : (metadataFor kind metadata).TimeSupported := by
  have hge := Int64.le_iff_toInt_le.mp h.seconds_ge
  have hseconds := Int64.le_iff_toInt_le.mp h.seconds_le
  obtain ⟨⟨hnonneg, hle⟩, hcast⟩ := h.toInt_nsec
  intro timestamp htimestamp
  obtain rfl : _ = timestamp := Option.some.inj htimestamp
  refine ⟨⟨?_, ?_⟩, ?_, ?_⟩
  · rw [Int32.le_iff_toInt_le, hcast]
    exact hnonneg
  · rw [Int32.le_iff_toInt_le, hcast]
    exact hle
  · rw [Int64.lt_iff_toInt_lt]
    exact not_lt.mpr hge
  · rw [gt_iff_lt, Int64.lt_iff_toInt_lt]
    exact not_lt.mpr hseconds

theorem insertionOf_timeSupported (options : UploadOptions) (name : OsStr) (node : LocalNode)
    (digest : Digest) (insertion : Insertion)
    (h : insertionOf name node digest = some insertion) (hnode : Uploadable options node) :
    insertion.metadata.TimeSupported := by
  cases node with
  | file metadata content =>
      cases h
      exact metadataFor_timeSupported .file metadata hnode.1
  | directory metadata listing entries =>
      cases h
      exact metadataFor_timeSupported .directory metadata
        ((uploadable_directory_iff options _ _ _).mp hnode).1
  | symlink metadata target =>
      cases h
      exact metadataFor_timeSupported .symlink metadata hnode.1
  | special metadata kind => cases h
  | unreadable source => cases h

section Encode

variable [Sha256] [Prost]

theorem directoryBuilder_encodable (options : UploadOptions) (metadata : Metadata)
    (listing : Option IoError) (entries : List (OsStr × LocalNode))
    (h : Uploadable options (.directory metadata listing entries)) :
    (directoryBuilder metadata (merkleEntries entries)).Encodable := by
  obtain ⟨htime, -, hnames, hentries⟩ := (uploadable_directory_iff options _ _ _).mp h
  rw [directoryBuilder, DirectoryBuilder.start_collected_encodable_iff, merkleEntries_eq]
  refine ⟨insertion_names_nodup entries (fun entry => merkle entry.2)
    (fun entry hentry => (hentries entry hentry).1) hnames, ?_⟩
  intro m hm
  rcases List.mem_append.mp hm with hroot | hentry
  · rw [Option.mem_toList] at hroot
    rw [← Option.some.inj hroot]
    exact metadataFor_timeSupported .directory metadata htime
  · obtain ⟨insertion, hinsertion, rfl⟩ := List.mem_map.mp hentry
    obtain ⟨entry, hentry, hinsertion⟩ := List.mem_filterMap.mp hinsertion
    exact insertionOf_timeSupported options _ _ _ _ hinsertion (hentries entry hentry).2

/-- The maps hold the digests of the children of the directory at `path`. -/
structure ChildrenFound (fileDigests directoryDigests : PathMap) (path : PathBuf)
    (entries : List (OsStr × LocalNode)) : Prop where
  files : ∀ entry ∈ entries, ∀ metadata content, entry.2 = .file metadata content →
    fileDigests.lookup (path.join entry.1) = some (Digest.forBytes content)
  directories : ∀ entry ∈ entries, ∀ metadata listing children,
    entry.2 = .directory metadata listing children →
      directoryDigests.lookup (path.join entry.1) = some (merkle entry.2)

/-- One entry of a directory whose children are in the maps: it is skipped, or
it is the call that adds its insertion. -/
theorem encodeEntry_spec (options : UploadOptions) (fileDigests directoryDigests : PathMap)
    (root path : PathBuf) (entry : OsStr × LocalNode) (hname : ValidFileName entry.1)
    (hnode : Uploadable options entry.2)
    (hfound : ChildrenFound fileDigests directoryDigests path [entry]) :
    (childOf root path entry = none ∧
      insertionOf entry.1 entry.2 (merkle entry.2) = none) ∨
    ∃ child insertion, childOf root path entry = some child ∧
      insertionOf entry.1 entry.2 (merkle entry.2) = some insertion ∧
        ∀ builder, encodeEntry fileDigests directoryDigests builder child =
          .ok (DirectoryBuilder.collected builder [insertion]) := by
  obtain ⟨name, node⟩ := entry
  obtain ⟨text, rfl, hvalid⟩ := hname
  have hinsert : ∀ (builder : DirectoryBuilder) (insertion : Insertion),
      insertion.name = text → builder.insert insertion = .ok (builder.collected [insertion]) := by
    intro builder insertion hinsertion
    exact (DirectoryBuilder.insert_eq_ok_iff _ _ _).mpr ⟨hinsertion ▸ hvalid, rfl⟩
  cases node with
  | file metadata content =>
      refine .inr ⟨_, _, rfl, rfl, fun builder => ?_⟩
      have hlookup := hfound.files _ List.mem_cons_self metadata content rfl
      simp only [encodeEntry, hlookup, Result.mapError_eq_ok_iff]
      rw [merkle]
      exact hinsert builder (.file _) rfl
  | directory metadata listing children =>
      refine .inr ⟨_, _, rfl, rfl, fun builder => ?_⟩
      have hlookup := hfound.directories _ List.mem_cons_self metadata listing children rfl
      simp only [encodeEntry, hlookup, Result.mapError_eq_ok_iff]
      exact hinsert builder (.directory _) rfl
  | symlink metadata target =>
      refine .inr ⟨_, _, rfl, rfl, fun builder => ?_⟩
      simp only [encodeEntry, Result.mapError_eq_ok_iff]
      exact hinsert builder (.symlink _) rfl
  | special metadata kind => exact .inl ⟨rfl, rfl⟩
  | unreadable source => exact .inl ⟨rfl, rfl⟩

/-- The loop over the entries of a directory collects their insertions. -/
theorem encodeEntries_spec (options : UploadOptions) (fileDigests directoryDigests : PathMap)
    (root path : PathBuf) (entries : List (OsStr × LocalNode))
    (hentries : ∀ entry ∈ entries, ValidFileName entry.1 ∧ Uploadable options entry.2)
    (hfound : ChildrenFound fileDigests directoryDigests path entries)
    (builder : DirectoryBuilder) :
    (entries.filterMap (childOf root path)).foldlM
        (encodeEntry fileDigests directoryDigests) builder =
      .ok (builder.collected (merkleEntries entries)) := by
  induction entries generalizing builder with
  | nil =>
      rw [merkleEntries]
      simp [DirectoryBuilder.collected, pure, Except.pure]
  | cons entry rest ih =>
      obtain ⟨hentry, hrest⟩ := List.forall_mem_cons.mp hentries
      have hhead : ChildrenFound fileDigests directoryDigests path [entry] :=
        ⟨fun e he => hfound.files e (by simp_all), fun e he => hfound.directories e (by simp_all)⟩
      have htail : ChildrenFound fileDigests directoryDigests path rest :=
        ⟨fun e he => hfound.files e (List.mem_cons_of_mem _ he),
          fun e he => hfound.directories e (List.mem_cons_of_mem _ he)⟩
      rw [merkleEntries, List.filterMap_cons]
      rcases encodeEntry_spec options fileDigests directoryDigests root path entry hentry.1
        hentry.2 hhead with ⟨hchild, hinsertion⟩ | ⟨child, insertion, hchild, hinsertion, hadd⟩
      · rw [hchild, hinsertion]
        exact ih hrest htail builder
      · rw [hchild, hinsertion]
        simp only [List.foldlM_cons, hadd, Result.ok_bind]
        rw [ih hrest htail, DirectoryBuilder.collected_cons]
        rfl

/-- A directory whose children are in the maps encodes to its canonical form. -/
theorem encodeDirectory_spec (options : UploadOptions) (fileDigests directoryDigests : PathMap)
    (root path : PathBuf) (metadata : Metadata) (listing : Option IoError)
    (entries : List (OsStr × LocalNode))
    (h : Uploadable options (.directory metadata listing entries))
    (hfound : ChildrenFound fileDigests directoryDigests path entries) :
    encodeDirectory (localDirectory root path metadata entries) fileDigests
        directoryDigests =
      .ok (encodedDirectory metadata entries) := by
  obtain ⟨-, -, hnames, hentries⟩ := (uploadable_directory_iff options _ _ _).mp h
  have hperm := sortBy_perm (fun entry : OsStr × LocalNode => byteKey entry.1.asBytes) entries
  have hloop := encodeEntries_spec options fileDigests directoryDigests root path
    (sortBy (fun entry : OsStr × LocalNode => byteKey entry.1.asBytes) entries)
    (fun entry hentry => hentries entry (hperm.mem_iff.mp hentry))
    ⟨fun e he => hfound.files e (hperm.mem_iff.mp he),
      fun e he => hfound.directories e (hperm.mem_iff.mp he)⟩
    (DirectoryBuilder.withMetadata (metadataFor .directory metadata))
  have hinsertions := hperm.filterMap
    fun entry => insertionOf entry.1 entry.2 (merkle entry.2)
  rw [← merkleEntries_eq, ← merkleEntries_eq] at hinsertions
  have hnodup : ((merkleEntries entries).map Insertion.name).Nodup := by
    rw [merkleEntries_eq]
    exact insertion_names_nodup entries (fun entry => merkle entry.2)
      (fun entry hentry => (hentries entry hentry).1) hnames
  have hcanonical := canonical_of_perm metadata hinsertions.symm hnodup
  have hencodable := directoryBuilder_encodable options metadata listing
    (sortBy (fun entry : OsStr × LocalNode => byteKey entry.1.asBytes) entries)
    ((uploadable_directory_iff options _ _ _).mpr
      ⟨((uploadable_directory_iff options _ _ _).mp h).1,
        ((uploadable_directory_iff options _ _ _).mp h).2.1,
        (hperm.map Prod.fst).nodup_iff.mpr hnames,
        fun entry hentry => hentries entry (hperm.mem_iff.mp hentry)⟩)
  unfold encodeDirectory localDirectory
  rw [hloop, Result.ok_bind, Result.mapError_eq_ok_iff, encodedDirectory, hcanonical]
  exact (DirectoryBuilder.encode_eq_ok_iff _ _).mpr ⟨hencodable, rfl⟩

/-- The invariant of the loop: every directory that is not still to come is in
the map, and what is to come is ordered deepest first. -/
structure EncodeInvariant (tree : LocalNode) (todo : List LocalNode.WalkedDirectory)
    (directoryDigests : PathMap) : Prop where
  found : ∀ directory ∈ tree.directories, directory.1 ∉ todo.map Prod.fst →
    directoryDigests.lookup directory.1 =
      some (encodedDirectory directory.2.1 directory.2.2).digest
  todo_mem : ∀ directory ∈ todo, directory ∈ tree.directories
  deepest_first : todo.Pairwise fun left right => pathDepth right.1 ≤ pathDepth left.1

omit [Sha256] [Prost] in
theorem pathDepth_le_of_encodingOrder {left right : PathBuf}
    (h : encodingOrder left ≤ encodingOrder right) : pathDepth right ≤ pathDepth left := by
  rcases (Prod.Lex.le_iff).mp h with hlt | heq
  · exact le_of_lt (OrderDual.ofDual_lt_ofDual.mpr hlt)
  · exact le_of_eq (congrArg OrderDual.ofDual heq.1).symm

theorem EncodeInvariant.childrenFound {tree : LocalNode} {directory : LocalNode.WalkedDirectory}
    {todo : List LocalNode.WalkedDirectory} {fileDigests directoryDigests : PathMap}
    (h : EncodeInvariant tree (directory :: todo) directoryDigests)
    (hfiles : ∀ item ∈ LocalNode.walk [] tree, ∀ metadata content,
      item.2 = .file metadata content →
        fileDigests.lookup item.1 = some (Digest.forBytes content)) :
    ChildrenFound fileDigests directoryDigests directory.1 directory.2.2 := by
  obtain ⟨listing, hwalk⟩ := (tree.mem_directories_iff directory).mp
    (h.todo_mem directory List.mem_cons_self)
  have hchild := fun entry hentry => tree.child_mem_walk [] _ hwalk _ _ _ rfl entry hentry
  refine ⟨fun entry hentry metadata content hfile => ?_, ?_⟩
  · exact hfiles _ (hchild entry hentry) metadata content hfile
  · intro entry hentry metadata listing' children hdirectory
    have hmem : (directory.1.join entry.1, metadata, children) ∈ tree.directories := by
      rw [LocalNode.mem_directories_iff]
      refine ⟨listing', ?_⟩
      have hentryMem := hchild entry hentry
      rw [hdirectory] at hentryMem
      exact hentryMem
    have hdepth : ∀ other ∈ directory :: todo, pathDepth other.1 ≤ pathDepth directory.1 := by
      intro other hother
      rcases List.mem_cons.mp hother with rfl | hother
      · exact le_rfl
      · exact List.rel_of_pairwise_cons h.deepest_first hother
    rw [hdirectory, merkle_directory]
    refine h.found _ hmem ?_
    intro hpath
    obtain ⟨other, hother, heq⟩ := List.mem_map.mp hpath
    have hle := hdepth other hother
    rw [heq] at hle
    simp [pathDepth, PathBuf.join] at hle

theorem EncodeInvariant.step (options : UploadOptions) {tree : LocalNode}
    (htree : Uploadable options tree) (root : PathBuf) (fileDigests : PathMap)
    (hfiles : ∀ item ∈ LocalNode.walk [] tree, ∀ metadata content,
      item.2 = .file metadata content →
        fileDigests.lookup item.1 = some (Digest.forBytes content))
    (directory : LocalNode.WalkedDirectory) (todo : List LocalNode.WalkedDirectory)
    (state : EncodeState) (h : EncodeInvariant tree (directory :: todo) state.1) :
    ∃ state',
      encodeStep fileDigests (localDirectory root directory.1 directory.2.1 directory.2.2)
          state =
        .ok (encodedDirectory directory.2.1 directory.2.2, state') ∧
      EncodeInvariant tree todo state'.1 := by
  have hmem := h.todo_mem directory List.mem_cons_self
  obtain ⟨listing, hwalk⟩ := (tree.mem_directories_iff directory).mp hmem
  have hencode := encodeDirectory_spec options fileDigests state.1 root directory.1
    directory.2.1 listing directory.2.2
    (LocalNode.uploadable_of_mem_walk options tree htree [] _ hwalk)
    (h.childrenFound hfiles)
  refine ⟨((directory.1, (encodedDirectory directory.2.1 directory.2.2).digest) :: state.1,
    state.2.merge (encodedDirectory directory.2.1 directory.2.2).warnings), ?_, ?_⟩
  · simp only [encodeStep, hencode, withContext_ok, Result.ok_bind]
    rfl
  · refine ⟨?_, fun other hother => h.todo_mem other (List.mem_cons_of_mem _ hother),
      h.deepest_first.of_cons⟩
    intro other hother hpath
    by_cases heq : other.1 = directory.1
    · have hsame := Keyed.eq_of_mem_of_nodup Prod.fst
        (LocalNode.directories_paths_nodup options tree htree) hother hmem heq
      rw [hsame]
      exact List.lookup_cons_self
    · have hne : (other.1 == directory.1) = false := by simpa using heq
      rw [List.lookup_cons]
      simp only [hne]
      refine h.found other hother ?_
      rw [List.map_cons, List.mem_cons, not_or]
      exact ⟨heq, hpath⟩

/-- The loop over the scanned directories of a tree. -/
theorem encodeLocalTree_spec (options : UploadOptions) {tree : LocalNode}
    (htree : Uploadable options tree) (metadata : Metadata) (listing : Option IoError)
    (entries : List (OsStr × LocalNode)) (hroot : tree = .directory metadata listing entries)
    (root : PathBuf) (scanned : LocalTree) (fileDigests : List FileDigest)
    (hdirectories : scanned.directories.Perm
      ((LocalNode.walk [] tree).filterMap (localDirectory? root)))
    (hsorted : scanned.directories.Pairwise fun left right =>
      encodingOrder left.relativePath ≤ encodingOrder right.relativePath)
    (hfiles : ∀ item ∈ LocalNode.walk [] tree, ∀ metadata content,
      item.2 = .file metadata content →
        (digestByPath fileDigests).lookup item.1 = some (Digest.forBytes content)) :
    ∃ encoded, encodeLocalTree scanned fileDigests = .ok encoded ∧
      encoded.rootDigest = merkle tree ∧
      encoded.directories.Perm (tree.directories.map fun directory =>
        encodedDirectory directory.2.1 directory.2.2) ∧
      encoded.fileBlobs = fileDigests.map fun file => (file.digest, file.absolutePath) := by
  rw [LocalNode.filterMap_localDirectory] at hdirectories
  obtain ⟨order, horder, hscanned⟩ := Keyed.exists_perm_map_eq _ hdirectories
  rw [hscanned, List.pairwise_map] at hsorted
  have hstart : EncodeInvariant tree order [] := by
    refine ⟨?_, fun directory hdirectory => horder.mem_iff.mp hdirectory,
      hsorted.imp fun h => pathDepth_le_of_encodingOrder h⟩
    intro directory hdirectory hpath
    exact absurd (List.mem_map_of_mem (horder.mem_iff.mpr hdirectory)) hpath
  have hstep := EncodeInvariant.step options htree root (digestByPath fileDigests) hfiles
  have hrule := Result.mapState_of_invariant
    (fun directory => encodeStep (digestByPath fileDigests)
      (localDirectory root directory.1 directory.2.1 directory.2.2))
    (fun directory => encodedDirectory directory.2.1 directory.2.2)
    (fun todo state => EncodeInvariant tree todo state.1)
  obtain ⟨state, hloop, hend⟩ := hrule hstep order ([], {}) hstart
  rw [← Result.mapState_map, ← hscanned] at hloop
  have hmem : ([], metadata, entries) ∈ tree.directories := by
    rw [LocalNode.mem_directories_iff]
    refine ⟨listing, ?_⟩
    rw [hroot]
    exact LocalNode.self_mem_walk [] _
  have hlookup : state.1.lookup [] = some (encodedDirectory metadata entries).digest :=
    hend.found _ hmem List.not_mem_nil
  refine ⟨
    { rootDigest := (encodedDirectory metadata entries).digest
      directories := order.map fun directory =>
        encodedDirectory directory.2.1 directory.2.2
      fileBlobs := fileDigests.map fun file => (file.digest, file.absolutePath)
      warnings := state.2 }, ?_, ?_, horder.map _, rfl⟩
  · simp only [encodeLocalTree, hloop, Result.ok_bind, hlookup]
  · rw [hroot, merkle_directory]

/-- Every file of the tree keeps its content while it is read. -/
def Unchanged (disk : Disk) (root : PathBuf) (tree : LocalNode) : Prop :=
  ∀ file ∈ tree.files, Serves disk (root ++ file.1) file.2.2

/-- The digests of the files of a tree, in the order of a list of its files. -/
def walkedDigests (root : PathBuf) (order : List LocalNode.WalkedFile) : List FileDigest :=
  order.map fun file => servedDigest (localFile root file.1 file.2.1) file.2.2

omit [Prost] in
theorem hashFiles_spec (options : UploadOptions) (hoptions : validateOptions options = .ok ())
    {tree : LocalNode} (htree : Uploadable options tree) (disk : Disk) (root : PathBuf)
    (hdisk : Unchanged disk root tree) (files : List LocalFile)
    (hfiles : files.Perm ((LocalNode.walk [] tree).filterMap (localFile? root)))
    (workers : HashWorkers) (hworkers : workers.completion.Perm (List.range files.length)) :
    ∃ digests order, hashFiles disk workers files options = .ok digests ∧
      digests.Perm (walkedDigests root order) ∧ order.Perm tree.files := by
  rw [LocalNode.filterMap_localFile] at hfiles
  obtain ⟨order, horder, hlocal⟩ := Keyed.exists_perm_map_eq _ hfiles
  have hhash : List.Forall₂ (fun file digest =>
      hashFile disk file (hashChunkBytes options) = .ok digest) files
      (walkedDigests root order) := by
    rw [hlocal, walkedDigests, List.forall₂_map_left_iff, List.forall₂_map_right_iff,
      List.forall₂_same]
    intro file hfile
    have hmem := horder.mem_iff.mp hfile
    have hup := LocalNode.uploadable_of_mem_walk options tree htree [] _
      ((tree.mem_files_iff file).mp hmem)
    exact hashFile_served disk _ _ _ (hashChunkBytes_pos options) (hdisk file hmem)
      hup.2.1 hup.2.2
  exact ⟨_, order, hashFiles_eq_ok disk workers files options hoptions hworkers _ hhash,
    sortBy_perm _ _, horder⟩

omit [Prost] in
theorem lookup_digestByPath (options : UploadOptions) {tree : LocalNode}
    (htree : Uploadable options tree) (root : PathBuf) (digests : List FileDigest)
    (order : List LocalNode.WalkedFile) (hdigests : digests.Perm (walkedDigests root order))
    (horder : order.Perm tree.files) (item : PathBuf × LocalNode)
    (hitem : item ∈ LocalNode.walk [] tree) (metadata : Metadata) (content : Bytes)
    (hfile : item.2 = .file metadata content) :
    (digestByPath digests).lookup item.1 = some (Digest.forBytes content) := by
  have hmem : (item.1, metadata, content) ∈ tree.files := by
    rw [LocalNode.mem_files_iff, ← hfile]
    exact hitem
  have hpairs : (digestByPath digests).Perm
      (tree.files.map fun file => (file.1, Digest.forBytes file.2.2)) := by
    refine (List.reverse_perm _).trans ((hdigests.map _).trans ?_)
    rw [walkedDigests, List.map_map]
    exact horder.map _
  refine Keyed.lookup_eq_some_of_mem ?_ (hpairs.mem_iff.mpr (List.mem_map_of_mem hmem))
  rw [(hpairs.map Prod.fst).nodup_iff, List.map_map]
  exact LocalNode.files_paths_nodup options tree htree

omit [Prost] in
theorem walkedDigests_blobs (root : PathBuf) {digests : List FileDigest}
    {order files : List LocalNode.WalkedFile}
    (hdigests : digests.Perm (walkedDigests root order)) (horder : order.Perm files) :
    (digests.map fun file => (file.digest, file.absolutePath)).Perm
      (files.map fun file => (Digest.forBytes file.2.2, root ++ file.1)) := by
  refine (hdigests.map _).trans ?_
  rw [walkedDigests, List.map_map]
  exact horder.map _

/-- The stages up to the encoder on a tree the upload accepts. -/
theorem encodeStages_spec (options : UploadOptions)
    (hoptions : validateOptions options = .ok ()) (root : PathBuf) (tree : LocalNode)
    (metadata : Metadata) (listing : Option IoError) (entries : List (OsStr × LocalNode))
    (hroot : tree = .directory metadata listing entries) (htree : Uploadable options tree)
    (disk : Disk) (hdisk : Unchanged disk root tree) :
    ∃ scanned, scanLocalDirectoryWithOptions root tree options = .ok scanned ∧
      scanned.files.Perm ((LocalNode.walk [] tree).filterMap (localFile? root)) ∧
      ∀ workers : HashWorkers,
        workers.completion.Perm (List.range scanned.files.length) →
          ∃ digests encoded, hashFiles disk workers scanned.files options = .ok digests ∧
            encodeLocalTree scanned digests = .ok encoded ∧
            encoded.rootDigest = merkle tree ∧
            encoded.directories.Perm (tree.directories.map fun directory =>
              encodedDirectory directory.2.1 directory.2.2) ∧
            encoded.fileBlobs.Perm (tree.files.map fun file =>
              (Digest.forBytes file.2.2, root ++ file.1)) := by
  obtain ⟨scanned, hscan, hdirectories, hsorted, hfiles⟩ :=
    scanLocalDirectory_spec options root hoptions metadata listing entries
      (scannable_of_uploadable options _ (hroot ▸ htree))
  rw [← hroot] at hscan hdirectories hfiles
  refine ⟨scanned, hscan, hfiles, fun workers hworkers => ?_⟩
  obtain ⟨digests, order, hhash, hdigests, horder⟩ := hashFiles_spec options hoptions htree
    disk root hdisk scanned.files hfiles workers hworkers
  obtain ⟨encoded, hencode, hrootDigest, hencoded, hblobs⟩ := encodeLocalTree_spec options
    htree metadata listing entries hroot root scanned digests hdirectories hsorted
    (lookup_digestByPath options htree root digests order hdigests horder)
  refine ⟨digests, encoded, hhash, hencode, hrootDigest, hencoded, ?_⟩
  rw [hblobs]
  exact walkedDigests_blobs root hdigests horder

/-- For every tree, however `read_dir` orders its entries and in whatever order
the hash workers complete: scanning, hashing and encoding succeed, the root
digest is the Merkle digest of the tree, and there is one encoded directory for
each directory of the tree. -/
theorem encodeLocalTree_rootDigest_eq_merkle (options : UploadOptions)
    (hoptions : validateOptions options = .ok ()) (root : PathBuf) (tree listed : LocalNode)
    (metadata : Metadata) (listing : Option IoError) (entries : List (OsStr × LocalNode))
    (hroot : listed = .directory metadata listing entries)
    (htree : Uploadable options tree) (hlisted : listed.sorted = tree.sorted) (disk : Disk)
    (hdisk : Unchanged disk root listed) :
    ∃ scanned, scanLocalDirectoryWithOptions root listed options = .ok scanned ∧
      ∀ workers : HashWorkers,
        workers.completion.Perm (List.range scanned.files.length) →
          ∃ digests encoded, hashFiles disk workers scanned.files options = .ok digests ∧
            encodeLocalTree scanned digests = .ok encoded ∧
            encoded.rootDigest = merkle tree ∧
            encoded.directories.Perm (listed.directories.map fun directory =>
              encodedDirectory directory.2.1 directory.2.2) := by
  have hup : Uploadable options listed := by
    rw [← uploadable_sorted, hlisted, uploadable_sorted]
    exact htree
  have hmerkle : merkle listed = merkle tree := by
    rw [← merkle_sorted options listed hup, hlisted, merkle_sorted options tree htree]
  obtain ⟨scanned, hscan, -, hstages⟩ := encodeStages_spec options hoptions root listed
    metadata listing entries hroot hup disk hdisk
  refine ⟨scanned, hscan, fun workers hworkers => ?_⟩
  obtain ⟨digests, encoded, hhash, hencode, hrootDigest, hencoded, -⟩ :=
    hstages workers hworkers
  exact ⟨digests, encoded, hhash, hencode, hrootDigest.trans hmerkle, hencoded⟩

end Encode

namespace Sample

/-- The local directory `/r` with the executable file `a`. -/
def root : PathBuf := [.utf8 "", .utf8 "r"]

def fileMetadata : Metadata where
  mode := 0o100755
  mtime := -1
  mtimeNsec := 5
  dev := 1
  ino := 11
  len := 2

def rootMetadata : Metadata where
  mode := 0o40755
  mtime := 7
  mtimeNsec := 0
  dev := 1
  ino := 10
  len := 4096

def tree : LocalNode :=
  .directory rootMetadata none [(.utf8 "a", .file fileMetadata Tree.Sample.content)]

def options : UploadOptions where
  hashWorkers := 2
  inFlightBytes := 64 * 1024 * 1024
  failOnUnsupportedNodes := true

def disk : Disk := fun _ path =>
  if path = root ++ [.utf8 "a"] then .ok [.ok [104], .ok [105]]
  else .error "No such file or directory (os error 2)"

theorem tree_uploadable : Uploadable options tree := by
  have htime : fileMetadata.TimeSupported ∧ rootMetadata.TimeSupported :=
    ⟨⟨by decide, by decide, by decide, by decide⟩, ⟨by decide, by decide, by decide, by decide⟩⟩
  rw [tree, uploadable_directory_iff]
  refine ⟨htime.2, rfl, by decide, ?_⟩
  intro entry hentry
  rw [List.mem_singleton.mp hentry]
  exact ⟨⟨"a", rfl, by decide⟩, htime.1, rfl, by decide⟩

theorem tree_files :
    tree.files = [([.utf8 "a"], fileMetadata, Tree.Sample.content)] := by
  rw [LocalNode.files, tree, LocalNode.walk, LocalNode.walkEntries, LocalNode.walkEntries,
    LocalNode.walk]
  rfl

theorem disk_unchanged : Unchanged disk root tree := by
  intro file hfile chunkBytes hchunk
  rw [tree_files, List.mem_singleton] at hfile
  rw [hfile]
  refine ⟨[[104], [105]], rfl, ?_, rfl⟩
  intro chunk hmem
  rcases List.mem_pair.mp hmem with rfl | rfl <;> exact ⟨by decide, hchunk⟩

def linkMetadata : Metadata where
  mode := 0o120777
  mtime := 7
  mtimeNsec := 0
  dev := 1
  ino := 13
  len := 4

def innerMetadata : Metadata where
  mode := 0o40755
  mtime := 9
  mtimeNsec := 0
  dev := 1
  ino := 14
  len := 4096

def innerFileMetadata : Metadata where
  mode := 0o100644
  mtime := 8
  mtimeNsec := 0
  dev := 1
  ino := 15
  len := 2

def otherFileMetadata : Metadata :=
  { innerFileMetadata with ino := 16 }

def innerTree : LocalNode :=
  .directory innerMetadata none
    [(.utf8 "b", .file innerFileMetadata Tree.Sample.otherContent)]

/-- A root with two files, the directory `d` and a symlink to the file in it. -/
def nestedTree : LocalNode :=
  .directory rootMetadata none
    [(.utf8 "a", .file fileMetadata Tree.Sample.content), (.utf8 "d", innerTree),
      (.utf8 "l", .symlink linkMetadata (.ok (.utf8 "d/b"))),
      (.utf8 "z", .file otherFileMetadata Tree.Sample.otherContent)]

def nestedListed : LocalNode :=
  .directory rootMetadata none
    [(.utf8 "z", .file otherFileMetadata Tree.Sample.otherContent), (.utf8 "d", innerTree),
      (.utf8 "a", .file fileMetadata Tree.Sample.content),
      (.utf8 "l", .symlink linkMetadata (.ok (.utf8 "d/b")))]

def nestedDisk : Disk := fun _ path =>
  if path = root ++ [.utf8 "a"] then .ok [.ok [104], .ok [105]]
  else if path = root ++ [.utf8 "d", .utf8 "b"] ∨ path = root ++ [.utf8 "z"] then
    .ok [.ok [121], .ok [111]]
  else .error "No such file or directory (os error 2)"

theorem nested_times (metadata : Metadata)
    (h : metadata ∈ [rootMetadata, innerMetadata, linkMetadata, fileMetadata, innerFileMetadata,
      otherFileMetadata]) : metadata.TimeSupported := by
  simp only [List.mem_cons, List.not_mem_nil, or_false] at h
  rcases h with rfl | rfl | rfl | rfl | rfl | rfl
  all_goals exact ⟨by decide, by decide, by decide, by decide⟩

theorem innerTree_uploadable : Uploadable options innerTree := by
  rw [innerTree, uploadable_directory_iff]
  refine ⟨nested_times _ (by simp), rfl, by decide, ?_⟩
  intro entry hentry
  rw [List.mem_singleton.mp hentry]
  exact ⟨⟨"b", rfl, by decide⟩, nested_times _ (by simp), rfl, by decide⟩

theorem nestedTree_uploadable : Uploadable options nestedTree := by
  rw [nestedTree, uploadable_directory_iff]
  refine ⟨nested_times _ (by simp), rfl, by decide, ?_⟩
  intro entry hentry
  simp only [List.mem_cons, List.not_mem_nil, or_false] at hentry
  rcases hentry with rfl | rfl | rfl | rfl
  · exact ⟨⟨"a", rfl, by decide⟩, nested_times _ (by simp), rfl, by decide⟩
  · exact ⟨⟨"d", rfl, by decide⟩, innerTree_uploadable⟩
  · exact ⟨⟨"l", rfl, by decide⟩, nested_times _ (by simp), "d/b", rfl⟩
  · exact ⟨⟨"z", rfl, by decide⟩, nested_times _ (by simp), rfl, by decide⟩

theorem nestedListed_sorted : nestedListed.sorted = nestedTree.sorted := by
  simp only [LocalNode.sorted, nestedListed, nestedTree, LocalNode.sortedEntries]
  rfl

theorem nestedListed_uploadable : Uploadable options nestedListed := by
  rw [← uploadable_sorted, nestedListed_sorted, uploadable_sorted]
  exact nestedTree_uploadable

theorem nestedListed_files :
    nestedListed.files =
      [([.utf8 "z"], otherFileMetadata, Tree.Sample.otherContent),
        ([.utf8 "d", .utf8 "b"], innerFileMetadata, Tree.Sample.otherContent),
        ([.utf8 "a"], fileMetadata, Tree.Sample.content)] := by
  simp only [LocalNode.files, nestedListed, innerTree, LocalNode.walk, LocalNode.walkEntries]
  rfl

theorem nestedDisk_serves (path : PathBuf) (content : Bytes)
    (h : path = root ++ [.utf8 "a"] ∧ content = Tree.Sample.content ∨
      (path = root ++ [.utf8 "d", .utf8 "b"] ∨ path = root ++ [.utf8 "z"]) ∧
        content = Tree.Sample.otherContent) : Serves nestedDisk path content := by
  intro chunkBytes hchunk
  have hsingle : ∀ first second : UInt8, ∀ chunk ∈ [[first], [second]],
      0 < chunk.length ∧ chunk.length ≤ chunkBytes := by
    intro first second chunk hmem
    rcases List.mem_pair.mp hmem with rfl | rfl
    · exact ⟨Nat.one_pos, hchunk⟩
    · exact ⟨Nat.one_pos, hchunk⟩
  obtain ⟨rfl, rfl⟩ | ⟨rfl | rfl, rfl⟩ := h
  · exact ⟨[[104], [105]], rfl, hsingle 104 105, rfl⟩
  · exact ⟨[[121], [111]], rfl, hsingle 121 111, rfl⟩
  · exact ⟨[[121], [111]], rfl, hsingle 121 111, rfl⟩

theorem nestedDisk_unchanged : Unchanged nestedDisk root nestedListed := by
  intro file hfile
  rw [nestedListed_files] at hfile
  simp only [List.mem_cons, List.not_mem_nil, or_false] at hfile
  rcases hfile with rfl | rfl | rfl
  · exact nestedDisk_serves _ _ (.inr ⟨.inr rfl, rfl⟩)
  · exact nestedDisk_serves _ _ (.inr ⟨.inl rfl, rfl⟩)
  · exact nestedDisk_serves _ _ (.inl ⟨rfl, rfl⟩)

end Sample

/-- The theorem at the sample root, as the disk lists it. -/
theorem encodeLocalTree_rootDigest_eq_merkle_sample :
    letI : Sha256 := Tree.Sample.sha256 Tree.Sample.nestedBlobs
    letI : Prost := Prost.prescribed Tree.Sample.nestedMessages
    ∃ scanned, scanLocalDirectoryWithOptions Sample.root Sample.nestedListed Sample.options =
        .ok scanned ∧
      ∀ workers : HashWorkers,
        workers.completion.Perm (List.range scanned.files.length) →
          ∃ digests encoded,
            hashFiles Sample.nestedDisk workers scanned.files Sample.options = .ok digests ∧
            encodeLocalTree scanned digests = .ok encoded ∧
            encoded.rootDigest = merkle Sample.nestedTree ∧
            encoded.directories.Perm (Sample.nestedListed.directories.map fun directory =>
              encodedDirectory directory.2.1 directory.2.2) :=
  let _ : Sha256 := Tree.Sample.sha256 Tree.Sample.nestedBlobs
  let _ : Prost := Prost.prescribed Tree.Sample.nestedMessages
  encodeLocalTree_rootDigest_eq_merkle Sample.options rfl Sample.root Sample.nestedTree
    Sample.nestedListed _ _ _ rfl Sample.nestedTree_uploadable Sample.nestedListed_sorted
    Sample.nestedDisk Sample.nestedDisk_unchanged

end Upload

end RemoteFs
