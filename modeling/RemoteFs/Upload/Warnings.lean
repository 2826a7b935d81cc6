import Mathlib.Algebra.BigOperators.Group.List.Basic
import RemoteFs.Upload.Pipeline
import RemoteFs.Upload.ScanOutcome

/-!
# What an upload warns about

The warnings of an encoded tree are a sum: every metadata entry that is normalized adds what
its mode masks, and every symlink what its target does. The metadata of the root, of a file
and of a symlink is one entry; a directory below the root has two, one in its own message
and one in the node its parent has for it.

`encodeLocalTree_warnings` reduces the loops of the encoder to a sum over the scanned
directories, `addsUp` turns that into a sum over the nodes of the tree, and
`uploadLocalDirectory_warnings` says what the summary of an upload counts.
-/

namespace RemoteFs

namespace Tree

namespace TreeWarnings

@[ext] theorem ext {a b : TreeWarnings} (huid : a.maskedSetuid = b.maskedSetuid)
    (hgid : a.maskedSetgid = b.maskedSetgid)
    (habsolute : a.absoluteSymlinks = b.absoluteSymlinks)
    (hescaping : a.escapingSymlinks = b.escapingSymlinks) : a = b := by
  cases a
  cases b
  simp_all

instance instZero : Zero TreeWarnings where
  zero := {}

/-- Warnings are added by merging them. -/
instance instAdd : Add TreeWarnings where
  add := merge

instance instAddCommMonoid : AddCommMonoid TreeWarnings where
  nsmul := nsmulRec
  add_assoc _ _ _ := TreeWarnings.ext (Nat.add_assoc ..) (Nat.add_assoc ..)
    (Nat.add_assoc ..) (Nat.add_assoc ..)
  zero_add _ := TreeWarnings.ext (Nat.zero_add _) (Nat.zero_add _) (Nat.zero_add _)
    (Nat.zero_add _)
  add_zero _ := rfl
  add_comm _ _ := TreeWarnings.ext (Nat.add_comm ..) (Nat.add_comm ..) (Nat.add_comm ..)
    (Nat.add_comm ..)

theorem merge_eq_add (a b : TreeWarnings) : a.merge b = a + b := rfl

theorem empty_eq_zero : ({} : TreeWarnings) = 0 := rfl

/-- A counter of the warnings, as a function that respects sums. -/
def counter (field : TreeWarnings → ℕ) (hzero : field 0 = 0)
    (hadd : ∀ a b, field (a + b) = field a + field b) : TreeWarnings →+ ℕ where
  toFun := field
  map_zero' := hzero
  map_add' := hadd

def setuidCounter : TreeWarnings →+ ℕ := counter maskedSetuid rfl fun _ _ => rfl
def setgidCounter : TreeWarnings →+ ℕ := counter maskedSetgid rfl fun _ _ => rfl
def absoluteCounter : TreeWarnings →+ ℕ := counter absoluteSymlinks rfl fun _ _ => rfl
def escapingCounter : TreeWarnings →+ ℕ := counter escapingSymlinks rfl fun _ _ => rfl

theorem foldl_add {α : Type*} (f : TreeWarnings → α → TreeWarnings) (g : α → TreeWarnings)
    (hf : ∀ warnings a, f warnings a = warnings + g a) (as : List α) :
    ∀ warnings, as.foldl f warnings = warnings + (as.map g).sum := by
  induction as with
  | nil =>
      intro warnings
      simp
  | cons a as ih =>
      intro warnings
      rw [List.foldl_cons, ih, hf, List.map_cons, List.sum_cons, add_assoc]

end TreeWarnings

def modeCount (mode : UInt32) : TreeWarnings where
  maskedSetuid := if mode &&& setuidBit ≠ 0 then 1 else 0
  maskedSetgid := if mode &&& setgidBit ≠ 0 then 1 else 0

def targetCount (target : String) : TreeWarnings where
  absoluteSymlinks := if target.toList.head? = some '/' then 1 else 0
  escapingSymlinks := if targetEscapes target then 1 else 0

theorem NodeMetadata.modeWarnings_some {metadata : NodeMetadata} {mode : UInt32}
    (h : metadata.mode = some mode) (path : PathBuf) :
    metadata.modeWarnings path = modeCount mode := by
  rw [NodeMetadata.modeWarnings, h]
  simp only [modeCount, TreeWarnings.add]
  by_cases huid : mode &&& setuidBit ≠ 0
  · by_cases hgid : mode &&& setgidBit ≠ 0 <;> simp [huid, hgid]
  · by_cases hgid : mode &&& setgidBit ≠ 0 <;> simp [huid, hgid]

theorem targetWarnings_eq (entry : SymlinkEntry) (warnings : TreeWarnings) :
    targetWarnings entry warnings = warnings + targetCount entry.target := by
  rw [targetWarnings]
  ext
  all_goals
    by_cases habsolute : entry.target.toList.head? = some '/' <;>
      by_cases hescapes : targetEscapes entry.target <;>
        simp [habsolute, hescapes, TreeWarnings.add, targetCount, ← TreeWarnings.merge_eq_add,
          TreeWarnings.merge]

def DirectoryBuilder.warningSum (self : DirectoryBuilder) : TreeWarnings :=
  self.rootWarnings + (self.files.map fun entry => entry.metadata.modeWarnings []).sum +
    (self.directories.map fun entry => entry.metadata.modeWarnings []).sum +
      (self.symlinks.map fun entry =>
        targetCount entry.target + entry.metadata.modeWarnings []).sum

theorem DirectoryBuilder.warningSum_file (self : DirectoryBuilder) (entry : FileEntry) :
    { self with files := self.files ++ [entry] }.warningSum =
      self.warningSum + entry.metadata.modeWarnings [] := by
  simp only [warningSum, rootWarnings, List.map_append, List.sum_append, List.map_cons,
    List.map_nil, List.sum_singleton]
  ac_rfl

theorem DirectoryBuilder.warningSum_directory (self : DirectoryBuilder)
    (entry : DirectoryEntry) :
    { self with directories := self.directories ++ [entry] }.warningSum =
      self.warningSum + entry.metadata.modeWarnings [] := by
  simp only [warningSum, rootWarnings, List.map_append, List.sum_append, List.map_cons,
    List.map_nil, List.sum_singleton]
  ac_rfl

theorem DirectoryBuilder.warningSum_symlink (self : DirectoryBuilder) (entry : SymlinkEntry) :
    { self with symlinks := self.symlinks ++ [entry] }.warningSum =
      self.warningSum + (targetCount entry.target + entry.metadata.modeWarnings []) := by
  simp only [warningSum, rootWarnings, List.map_append, List.sum_append, List.map_cons,
    List.map_nil, List.sum_singleton]
  ac_rfl

theorem NodeMetadata.modeWarnings_path (metadata : NodeMetadata) (path : PathBuf) :
    metadata.modeWarnings path = metadata.modeWarnings [] := by
  cases hmode : metadata.mode with
  | none => rw [NodeMetadata.modeWarnings, NodeMetadata.modeWarnings, hmode]
  | some mode => rw [modeWarnings_some hmode, modeWarnings_some hmode]

/-- The loops of the encoder add the warnings up, in whatever order the entries are. -/
theorem DirectoryBuilder.canonicalWarnings_eq (self : DirectoryBuilder) :
    self.canonicalWarnings = self.warningSum := by
  have hmode : ∀ {α : Type} (metadata : α → NodeMetadata) (name : α → String)
      (warnings : TreeWarnings) (entry : α),
      warnings.merge ((metadata entry).modeWarnings [.utf8 (name entry)]) =
        warnings + (metadata entry).modeWarnings [] := by
    intro α metadata name warnings entry
    rw [TreeWarnings.merge_eq_add, NodeMetadata.modeWarnings_path]
  have hlink : ∀ (warnings : TreeWarnings) (entry : SymlinkEntry),
      (targetWarnings entry warnings).merge (entry.metadata.modeWarnings [.utf8 entry.name]) =
        warnings + (targetCount entry.target + entry.metadata.modeWarnings []) := by
    intro warnings entry
    rw [TreeWarnings.merge_eq_add, NodeMetadata.modeWarnings_path, targetWarnings_eq, add_assoc]
  rw [canonicalWarnings, warningSum]
  rw [TreeWarnings.foldl_add _ _ hlink,
    TreeWarnings.foldl_add _ _ (hmode DirectoryEntry.metadata DirectoryEntry.name),
    TreeWarnings.foldl_add _ _ (hmode FileEntry.metadata FileEntry.name)]
  simp only [sortEntries]
  rw [((SortBy.sortBy_perm _ self.files).map _).sum_eq,
    ((SortBy.sortBy_perm _ self.directories).map _).sum_eq,
    ((SortBy.sortBy_perm _ self.symlinks).map _).sum_eq]

end Tree

namespace Upload

open SortBy RemoteFs.Tree Cas

/-! ### The encoder -/

theorem modeWarnings_metadataFor (kind : NodeKind) (metadata : Metadata) (path : PathBuf) :
    (metadataFor kind metadata).modeWarnings path = modeCount metadata.mode := by
  have huid : metadata.mode &&& 0o7777 &&& setuidBit = metadata.mode &&& setuidBit := by
    rw [UInt32.and_assoc]
    rfl
  have hgid : metadata.mode &&& 0o7777 &&& setgidBit = metadata.mode &&& setgidBit := by
    rw [UInt32.and_assoc]
    rfl
  rw [NodeMetadata.modeWarnings_some rfl]
  simp only [modeCount, huid, hgid]

def childWarnings : LocalDirectoryChild → TreeWarnings
  | .file file => modeCount file.metadata.mode
  | .directory directory => modeCount directory.metadata.mode
  | .symlink symlink => targetCount symlink.target + modeCount symlink.metadata.mode

/-- What a scanned directory adds: its own metadata and its entries. -/
def directoryWarnings (directory : LocalDirectory) : TreeWarnings :=
  modeCount directory.metadata.mode + (directory.entries.map childWarnings).sum

theorem encodeEntry_warnings {fileDigests directoryDigests : PathMap}
    {builder builder' : DirectoryBuilder} {entry : LocalDirectoryChild}
    (h : encodeEntry fileDigests directoryDigests builder entry = .ok builder') :
    builder'.warningSum = builder.warningSum + childWarnings entry := by
  cases entry with
  | file file =>
      rw [encodeEntry] at h
      split at h
      · cases h
      · rw [Result.mapError_eq_ok_iff, DirectoryBuilder.addFile_eq_ok_iff] at h
        rw [h.2, DirectoryBuilder.warningSum_file, modeWarnings_metadataFor, childWarnings]
  | directory directory =>
      rw [encodeEntry] at h
      split at h
      · cases h
      · rw [Result.mapError_eq_ok_iff, DirectoryBuilder.addDirectory_eq_ok_iff] at h
        rw [h.2, DirectoryBuilder.warningSum_directory, modeWarnings_metadataFor, childWarnings]
  | symlink symlink =>
      rw [encodeEntry, Result.mapError_eq_ok_iff, DirectoryBuilder.addSymlink_eq_ok_iff] at h
      rw [h.2, DirectoryBuilder.warningSum_symlink, modeWarnings_metadataFor, childWarnings]

theorem encodeEntries_warnings {fileDigests directoryDigests : PathMap}
    (entries : List LocalDirectoryChild) :
    ∀ {builder builder' : DirectoryBuilder},
      entries.foldlM (encodeEntry fileDigests directoryDigests) builder = .ok builder' →
      builder'.warningSum = builder.warningSum + (entries.map childWarnings).sum := by
  induction entries with
  | nil =>
      intro builder builder' h
      cases h
      simp
  | cons entry entries ih =>
      intro builder builder' h
      rw [List.foldlM_cons, Result.bind_eq_ok_iff] at h
      obtain ⟨middle, hentry, hrest⟩ := h
      rw [ih hrest, encodeEntry_warnings hentry, List.map_cons, List.sum_cons, add_assoc]

section Encode

variable [Sha256] [Prost]

theorem encodeDirectory_warnings {directory : LocalDirectory}
    {fileDigests directoryDigests : PathMap} {encoded : EncodedDirectory}
    (h : encodeDirectory directory fileDigests directoryDigests = .ok encoded) :
    encoded.warnings = directoryWarnings directory := by
  rw [encodeDirectory, Result.bind_eq_ok_iff] at h
  obtain ⟨builder, hentries, hencode⟩ := h
  rw [Result.mapError_eq_ok_iff, DirectoryBuilder.encode_eq_ok_iff] at hencode
  obtain ⟨-, rfl⟩ := hencode
  change builder.canonicalWarnings = _
  rw [DirectoryBuilder.canonicalWarnings_eq, encodeEntries_warnings _ hentries,
    directoryWarnings]
  congr 1
  simp only [DirectoryBuilder.warningSum, DirectoryBuilder.rootWarnings,
    DirectoryBuilder.withMetadata, modeWarnings_metadataFor, TreeWarnings.merge_eq_add,
    TreeWarnings.empty_eq_zero, List.map_nil, List.sum_nil, zero_add, add_zero]

/-- The warnings of an encoded tree are those of its scanned directories. -/
theorem encodeLocalTree_warnings {tree : LocalTree} {fileDigests : List FileDigest}
    {encoded : EncodedDirectoryTree} (h : encodeLocalTree tree fileDigests = .ok encoded) :
    encoded.warnings = (tree.directories.map directoryWarnings).sum := by
  have hloop : ∀ (directories : List LocalDirectory) (state : EncodeState)
      (bs : List EncodedDirectory) (state' : EncodeState),
      Result.mapState (encodeStep (digestByPath fileDigests)) directories state =
        .ok (bs, state') →
      state'.2 = state.2 + (directories.map directoryWarnings).sum := by
    intro directories
    induction directories with
    | nil =>
        intro state bs state' hloop
        cases hloop
        simp
    | cons directory directories ih =>
        intro state bs state' hloop
        simp only [Result.mapState, Result.bind_eq_ok_iff, encodeStep,
          withContext_eq_ok_iff] at hloop
        obtain ⟨_, ⟨encoded, hencode, heq⟩, ⟨rest, last⟩, hrest, heq'⟩ := hloop
        cases heq
        cases heq'
        rw [ih _ _ _ hrest, encodeDirectory_warnings hencode, TreeWarnings.merge_eq_add,
          List.map_cons, List.sum_cons, add_assoc]
  rw [encodeLocalTree, Result.bind_eq_ok_iff] at h
  obtain ⟨⟨directories, directoryDigests, warnings⟩, hdirectories, h⟩ := h
  dsimp only at h
  split at h
  · cases h
  · cases h
    have hsum := hloop _ _ _ _ hdirectories
    rwa [TreeWarnings.empty_eq_zero, zero_add] at hsum

end Encode

/-! ### The tree -/

def entryWarnings : LocalNode → TreeWarnings
  | .file metadata _ => modeCount metadata.mode
  | .directory metadata _ _ => modeCount metadata.mode
  | .symlink metadata target => targetCount (targetText target) + modeCount metadata.mode
  | .special _ _ => 0
  | .unreadable _ => 0

def messageWarnings : LocalNode → TreeWarnings
  | .directory metadata _ _ => modeCount metadata.mode
  | .file _ _ => 0
  | .symlink _ _ => 0
  | .special _ _ => 0
  | .unreadable _ => 0

theorem sum_map_filterMap {α β : Type} (f : α → Option β) (g : β → TreeWarnings)
    (w : α → TreeWarnings) (h : ∀ a, ((f a).map g).getD 0 = w a) (as : List α) :
    ((as.filterMap f).map g).sum = (as.map w).sum := by
  induction as with
  | nil => rfl
  | cons a as ih =>
      rw [List.map_cons, List.sum_cons, ← h a, List.filterMap_cons]
      cases hfound : f a with
      | none => simpa using ih
      | some b => simp [ih]

theorem directoryWarnings_localDirectory (root path : PathBuf) (metadata : Metadata)
    (entries : List (OsStr × LocalNode)) :
    directoryWarnings (localDirectory root path metadata entries) =
      modeCount metadata.mode + (entries.map fun entry => entryWarnings entry.2).sum := by
  have hchild : ∀ entry : OsStr × LocalNode,
      ((childOf root path entry).map childWarnings).getD 0 = entryWarnings entry.2 := by
    rintro ⟨name, node⟩
    cases node <;> rfl
  rw [directoryWarnings, localDirectory]
  simp only
  rw [sum_map_filterMap _ _ _ hchild, ((sortBy_perm _ entries).map _).sum_eq]

def scannedWarnings (root : PathBuf) (items : List (PathBuf × LocalNode)) : TreeWarnings :=
  ((items.filterMap (localDirectory? root)).map directoryWarnings).sum

/-- What some nodes add, each as an entry and in a message of its own. -/
def walkedWarnings (items : List (PathBuf × LocalNode)) : TreeWarnings :=
  (items.map fun item => entryWarnings item.2 + messageWarnings item.2).sum

theorem scannedWarnings_append (root : PathBuf) (items items' : List (PathBuf × LocalNode)) :
    scannedWarnings root (items ++ items') =
      scannedWarnings root items + scannedWarnings root items' := by
  rw [scannedWarnings, List.filterMap_append, List.map_append, List.sum_append]
  rfl

theorem walkedWarnings_append (items items' : List (PathBuf × LocalNode)) :
    walkedWarnings (items ++ items') = walkedWarnings items + walkedWarnings items' := by
  rw [walkedWarnings, List.map_append, List.sum_append]
  rfl

/-- The directories below a node, and what it adds as an entry, together add what its
nodes add as entries and in messages. -/
def AddsUp (root : PathBuf) (node : LocalNode) : Prop :=
  ∀ path, scannedWarnings root (LocalNode.walk path node) + entryWarnings node =
    walkedWarnings (LocalNode.walk path node)

theorem addsUp_entries (root path : PathBuf) (entries : List (OsStr × LocalNode))
    (h : ∀ entry ∈ entries, AddsUp root entry.2) :
    scannedWarnings root (LocalNode.walkEntries path entries) +
        (entries.map fun entry => entryWarnings entry.2).sum =
      walkedWarnings (LocalNode.walkEntries path entries) := by
  induction entries with
  | nil => rfl
  | cons entry rest ih =>
      obtain ⟨hentry, hrest⟩ := List.forall_mem_cons.mp h
      rw [LocalNode.walkEntries, scannedWarnings_append, walkedWarnings_append, ← ih hrest,
        ← hentry, List.map_cons, List.sum_cons]
      ac_rfl

theorem scannedWarnings_directory (root path : PathBuf) (metadata : Metadata)
    (listing : Option IoError) (entries : List (OsStr × LocalNode))
    (h : ∀ entry ∈ entries, AddsUp root entry.2) :
    scannedWarnings root (LocalNode.walk path (.directory metadata listing entries)) =
      modeCount metadata.mode + walkedWarnings (LocalNode.walkEntries path entries) := by
  rw [← addsUp_entries root path entries h, LocalNode.walk, scannedWarnings,
    List.filterMap_cons, localDirectory?, List.map_cons, List.sum_cons,
    directoryWarnings_localDirectory, scannedWarnings]
  ac_rfl

theorem addsUp (root : PathBuf) (node : LocalNode) : AddsUp root node := by
  induction node with
  | leaf node hleaf =>
      intro path
      rw [LocalNode.walk_leaf path node hleaf, scannedWarnings, walkedWarnings,
        List.filterMap_cons]
      cases node with
      | directory metadata listing entries => exact absurd rfl (hleaf metadata listing entries)
      | file => simp [localDirectory?, messageWarnings]
      | symlink => simp [localDirectory?, messageWarnings]
      | special => simp [localDirectory?, messageWarnings]
      | unreadable => simp [localDirectory?, messageWarnings]
  | directory metadata listing entries ih =>
      intro path
      rw [scannedWarnings_directory root path metadata listing entries ih, LocalNode.walk,
        walkedWarnings, walkedWarnings, List.map_cons, List.sum_cons]
      simp only [entryWarnings, messageWarnings]
      ac_rfl

/-! ### The summary of an upload -/

namespace LocalNode

def metadata? : LocalNode → Option Metadata
  | .file metadata _ => some metadata
  | .directory metadata _ _ => some metadata
  | .symlink metadata _ => some metadata
  | .special _ _ => none
  | .unreadable _ => none

/-- The metadata of the scanned nodes of a tree: the root, the directories below it, the
files and the symlinks, each once. -/
def scanned (node : LocalNode) : List Metadata :=
  (walk [] node).filterMap fun item => item.2.metadata?

def subdirectories (node : LocalNode) : List WalkedDirectory :=
  node.directories.filter fun directory => directory.1 ≠ []

abbrev WalkedSymlink := PathBuf × String

def symlink? : PathBuf × LocalNode → Option WalkedSymlink
  | (path, .symlink _ target) => some (path, targetText target)
  | (_, .file _ _) => none
  | (_, .directory _ _ _) => none
  | (_, .special _ _) => none
  | (_, .unreadable _) => none

def symlinks (node : LocalNode) : List WalkedSymlink :=
  (walk [] node).filterMap symlink?

theorem subdirectories_directory (metadata : Metadata) (listing : Option IoError)
    (entries : List (OsStr × LocalNode)) :
    (LocalNode.directory metadata listing entries).subdirectories =
      (walkEntries [] entries).filterMap directory? := by
  have hbelow : ∀ directory ∈ (walkEntries [] entries).filterMap directory?,
      directory.1 ≠ [] := by
    intro directory hdirectory hpath
    obtain ⟨⟨path, node⟩, hitem, hnode⟩ := List.mem_filterMap.mp hdirectory
    rw [walkEntries_eq, List.mem_flatMap] at hitem
    obtain ⟨entry, -, hitem⟩ := hitem
    have hlength := (prefix_of_mem_walk entry.2 _ _ hitem).length_le
    cases node <;> cases hnode
    simp only at hpath
    simp [PathBuf.join, hpath] at hlength
  rw [subdirectories, directories, walk, List.filterMap_cons, directory?, List.filter_cons]
  simp only [ne_eq, not_true_eq_false, decide_false, Bool.false_eq_true, if_false]
  rw [List.filter_eq_self]
  intro directory hdirectory
  simpa using hbelow directory hdirectory

end LocalNode

theorem sum_eq_countP {α β : Type} (f : α → Option β) (p : β → Bool) (g : α → ℕ)
    (h : ∀ a, g a = ((f a).map fun b => if p b then 1 else 0).getD 0) (as : List α) :
    (as.map g).sum = (as.filterMap f).countP p := by
  induction as with
  | nil => rfl
  | cons a as ih =>
      rw [List.map_cons, List.sum_cons, List.filterMap_cons, h a, ih]
      cases hfound : f a with
      | none => simp
      | some b =>
          simp only [Option.map_some, Option.getD_some, List.countP_cons]
          exact Nat.add_comm _ _

/-- The sum over the nodes of a tree: every node as an entry, every directory below the
root in its message. -/
theorem walkedWarnings_directory (metadata : Metadata) (listing : Option IoError)
    (entries : List (OsStr × LocalNode)) :
    modeCount metadata.mode + walkedWarnings (LocalNode.walkEntries [] entries) =
      ((LocalNode.walk [] (.directory metadata listing entries)).map fun item =>
          entryWarnings item.2).sum +
        ((LocalNode.walkEntries [] entries).map fun item => messageWarnings item.2).sum := by
  rw [walkedWarnings, List.sum_map_add, LocalNode.walk, List.map_cons, List.sum_cons, add_assoc]
  rfl

def Metadata.hasSetuid (metadata : Metadata) : Bool :=
  metadata.mode &&& setuidBit ≠ 0

def Metadata.hasSetgid (metadata : Metadata) : Bool :=
  metadata.mode &&& setgidBit ≠ 0

def isAbsolute (target : String) : Bool :=
  target.toList.head? = some '/'

/-- The counter of masked modes: one for each scanned node and one more for each directory
below the root. -/
theorem sum_modeCounter {node : LocalNode} (counter : TreeWarnings →+ ℕ) (hasBit : Metadata → Bool)
    (hmode : ∀ metadata, counter (modeCount metadata.mode) = if hasBit metadata then 1 else 0)
    (htarget : ∀ target, counter (targetCount target) = 0) (metadata : Metadata)
    (listing : Option IoError) (entries : List (OsStr × LocalNode))
    (hnode : node = .directory metadata listing entries) :
    counter (((LocalNode.walk [] node).map fun item => entryWarnings item.2).sum +
        ((LocalNode.walkEntries [] entries).map fun item => messageWarnings item.2).sum) =
      node.scanned.countP hasBit +
        node.subdirectories.countP fun directory => hasBit directory.2.1 := by
  rw [map_add, map_list_sum, map_list_sum, List.map_map, List.map_map, hnode,
    LocalNode.subdirectories_directory, LocalNode.scanned]
  congr 1
  · refine sum_eq_countP _ _ _ ?_ _
    rintro ⟨path, item⟩
    cases item <;>
      simp [entryWarnings, LocalNode.metadata?, hmode, htarget]
  · refine sum_eq_countP _ _ _ ?_ _
    rintro ⟨path, item⟩
    cases item <;>
      simp [messageWarnings, LocalNode.directory?, hmode]

/-- The counter of symlinks: one for each symlink whose target is counted. -/
theorem sum_targetCounter (node : LocalNode) (counter : TreeWarnings →+ ℕ) (counted : String → Bool)
    (hmode : ∀ mode, counter (modeCount mode) = 0)
    (htarget : ∀ target, counter (targetCount target) = if counted target then 1 else 0)
    (entries : List (OsStr × LocalNode)) :
    counter (((LocalNode.walk [] node).map fun item => entryWarnings item.2).sum +
        ((LocalNode.walkEntries [] entries).map fun item => messageWarnings item.2).sum) =
      node.symlinks.countP fun link => counted link.2 := by
  have hmessages : ((LocalNode.walkEntries [] entries).map fun item =>
      counter (messageWarnings item.2)).sum = 0 := by
    rw [List.sum_eq_zero]
    intro n hn
    obtain ⟨⟨path, item⟩, -, rfl⟩ := List.mem_map.mp hn
    cases item <;> simp [messageWarnings, hmode]
  rw [map_add, map_list_sum, map_list_sum, List.map_map, List.map_map]
  change _ + ((LocalNode.walkEntries [] entries).map fun item =>
    counter (messageWarnings item.2)).sum = _
  rw [hmessages, add_zero, LocalNode.symlinks]
  refine sum_eq_countP _ _ _ ?_ _
  rintro ⟨path, item⟩
  cases item <;> simp [entryWarnings, LocalNode.symlink?, hmode, htarget]

namespace Sample

def setuidMetadata : Metadata where
  mode := 0o44755
  mtime := 7
  mtimeNsec := 0
  dev := 1
  ino := 12
  len := 4096

/-- A root whose only entry is the directory `d`, which has the symlink `l` to `../x`. -/
def linkedTree : LocalNode :=
  .directory rootMetadata none
    [(.utf8 "d", .directory setuidMetadata none
      [(.utf8 "l", .symlink linkMetadata (.ok (.utf8 "../x")))])]

def linkDirectory : Reapi.Directory where
  files := []
  directories := []
  symlinks :=
    [{ name := "l", target := "../x", nodeProperties := some ⟨[], some ⟨7, 0⟩, some 0o777⟩ }]
  nodeProperties := some ⟨[], some ⟨7, 0⟩, some 0o755⟩

def linkBytes : Bytes :=
  [26, 20, 10, 1, 108, 18, 4, 46, 46, 47, 120, 34, 9, 18, 2, 8, 7, 26, 3, 8, 255, 3, 42, 9, 18,
    2, 8, 7, 26, 3, 8, 237, 3]

def linkedBytes : Bytes :=
  [18, 84, 10, 1, 100, 18, 68, 10, 64, 50, 102, 49, 100, 56, 54, 97, 53, 50, 48, 52, 97, 48, 98,
    48, 48, 49, 56, 54, 99, 57, 102, 50, 49, 48, 57, 98, 100, 54, 52, 101, 55, 55, 97, 49, 55,
    56, 99, 55, 48, 97, 55, 57, 100, 53, 51, 54, 49, 101, 57, 54, 51, 54, 55, 52, 102, 98, 100,
    48, 52, 48, 99, 55, 52, 16, 33, 26, 9, 18, 2, 8, 7, 26, 3, 8, 237, 3, 42, 9, 18, 2, 8, 7, 26,
    3, 8, 237, 3]

@[reducible] def linkedSha256 : Sha256 :=
  Tree.Sample.sha256
    [(linkBytes, #v[47, 29, 134, 165, 32, 74, 11, 0, 24, 108, 159, 33, 9, 189, 100, 231, 122, 23,
      140, 112, 167, 157, 83, 97, 233, 99, 103, 79, 189, 4, 12, 116]),
    (linkedBytes, #v[51, 58, 149, 170, 242, 183, 105, 74, 165, 137, 70, 188, 198, 90, 6, 31, 7, 65,
      95, 146, 72, 140, 55, 184, 127, 145, 232, 104, 100, 154, 47, 248])]

/-- The wire format on the two directories of the sample. -/
@[reducible] def linkedProst : Prost where
  encodeToVec directory := if directory = linkDirectory then linkBytes else linkedBytes
  decode bytes :=
    if bytes = linkBytes then .ok linkDirectory
    else .error "failed to decode Protobuf message"

def linkedUpload : Except UploadError UploadSummary × Held :=
  letI : Sha256 := linkedSha256
  letI : Prost := linkedProst
  uploadLocalDirectory (fun sources => sources.map Prod.fst) (memoryStore fun _ => none) disk
    { completion := [], joinError := "task was cancelled" } root linkedTree options []

end Sample

section Summary

variable [Sha256] [Prost] {σ : Type} {keys : Sources → List Digest} {store : BlobStore σ}
  {disk : Disk} {workers : HashWorkers} {root : PathBuf} {node : LocalNode}
  {options : UploadOptions} {s s' : σ} {summary : UploadSummary}

/-- What the summary of an upload warns about, in terms of the tree. -/
theorem uploadLocalDirectory_warnings
    (h : uploadLocalDirectory keys store disk workers root node options s =
      (.ok summary, s')) :
    ∃ metadata listing entries, node = .directory metadata listing entries ∧
      summary.warnings = UploadWarnings.mergeTree
        { hardLinks := node.files.length -
            (node.files.map fun file => file.2.1.identity).toFinset.card }
        (((LocalNode.walk [] node).map fun item => entryWarnings item.2).sum +
          ((LocalNode.walkEntries [] entries).map fun item => messageWarnings item.2).sum) := by
  obtain ⟨tree, encoded, upload, hstages, -, -, hwarnings⟩ := uploadLocalDirectory_eq_ok h
  obtain ⟨-, hscan, digests, -, hencode⟩ :=
    (encodeLocalDirectory_eq_ok_iff _ _ _ _ _ _ _).mp hstages
  obtain ⟨metadata, listing, entries, rfl, hdirectories, hfiles, honly, hlinks⟩ :=
    scanLocalDirectory_ok hscan
  refine ⟨metadata, listing, entries, rfl, ?_⟩
  have htotal : encoded.warnings = modeCount metadata.mode +
      walkedWarnings (LocalNode.walkEntries [] entries) := by
    rw [encodeLocalTree_warnings hencode, (hdirectories.map _).sum_eq]
    exact scannedWarnings_directory root [] metadata listing entries
      fun entry _ => addsUp root entry.2
  have hidentities : (tree.files.map fun file => file.metadata.identity).Perm
      ((LocalNode.directory metadata listing entries).files.map
        fun file => file.2.1.identity) := by
    refine (hfiles.map _).trans ?_
    rw [LocalNode.filterMap_localFile, List.map_map]
    rfl
  have hlength := hidentities.length_eq
  rw [List.length_map, List.length_map] at hlength
  rw [hlength, List.toFinset_eq_of_perm _ _ hidentities] at hlinks
  rw [hwarnings, honly, hlinks, htotal, walkedWarnings_directory metadata listing entries]

/-- The masked modes an upload counts are metadata entries: one for the root, each file and
each symlink, two for each directory below the root. Hard links are the files less their
`(dev, ino)` pairs. -/
theorem mode_warnings_count_entries
    (h : uploadLocalDirectory keys store disk workers root node options s =
      (.ok summary, s')) :
    summary.warnings.maskedSetuid = node.scanned.countP Metadata.hasSetuid +
        node.subdirectories.countP (fun directory => directory.2.1.hasSetuid) ∧
      summary.warnings.maskedSetgid = node.scanned.countP Metadata.hasSetgid +
        node.subdirectories.countP (fun directory => directory.2.1.hasSetgid) ∧
      summary.warnings.hardLinks = node.files.length -
        (node.files.map fun file => file.2.1.identity).toFinset.card := by
  obtain ⟨metadata, listing, entries, hnode, hwarnings⟩ := uploadLocalDirectory_warnings h
  rw [hwarnings]
  refine ⟨?_, ?_, rfl⟩
  · refine (Nat.zero_add _).trans ?_
    refine sum_modeCounter TreeWarnings.setuidCounter Metadata.hasSetuid ?_ (fun _ => rfl)
      metadata listing entries hnode
    intro metadata
    change (if metadata.mode &&& setuidBit ≠ 0 then 1 else 0) = _
    simp [Metadata.hasSetuid]
  · refine (Nat.zero_add _).trans ?_
    refine sum_modeCounter TreeWarnings.setgidCounter Metadata.hasSetgid ?_ (fun _ => rfl)
      metadata listing entries hnode
    intro metadata
    change (if metadata.mode &&& setgidBit ≠ 0 then 1 else 0) = _
    simp [Metadata.hasSetgid]

end Summary

theorem linkedUpload_eq : ∃ summary held, Sample.linkedUpload = (.ok summary, held) ∧
    summary.warnings = { maskedSetuid := 2, escapingSymlinks := 1 } := by
  exact ⟨_, _, rfl, rfl⟩

/-- The sample has a directory with the mode 4755 below its root, which counts twice. -/
theorem mode_warnings_count_entries_sample : ∃ summary held,
    Sample.linkedUpload = (.ok summary, held) ∧
      summary.warnings.maskedSetuid = Sample.linkedTree.scanned.countP Metadata.hasSetuid +
        Sample.linkedTree.subdirectories.countP (fun directory => directory.2.1.hasSetuid) ∧
      summary.warnings.maskedSetgid = Sample.linkedTree.scanned.countP Metadata.hasSetgid +
        Sample.linkedTree.subdirectories.countP (fun directory => directory.2.1.hasSetgid) ∧
      summary.warnings.hardLinks = Sample.linkedTree.files.length -
        (Sample.linkedTree.files.map fun file => file.2.1.identity).toFinset.card := by
  obtain ⟨summary, held, hupload, -⟩ := linkedUpload_eq
  let : Sha256 := Sample.linkedSha256
  let : Prost := Sample.linkedProst
  exact ⟨summary, held, hupload, mode_warnings_count_entries hupload⟩

/-- One node of the sample has the setuid bit, and two are counted. -/
theorem masked_setuid_not_per_node : ∃ summary held,
    Sample.linkedUpload = (.ok summary, held) ∧
      summary.warnings.maskedSetuid ≠ Sample.linkedTree.scanned.countP Metadata.hasSetuid := by
  obtain ⟨summary, held, hupload, hwarnings⟩ := linkedUpload_eq
  refine ⟨summary, held, hupload, ?_⟩
  rw [hwarnings]
  decide

end Upload

end RemoteFs
