import RemoteFs.Tree.Builder
import RemoteFs.Upload.Scan

/-!
# What the scanner collects

`Uploadable` is the class of trees the upload accepts: every entry has a valid
UTF-8 name of its own, every symlink target is UTF-8, every time fits a protobuf
`Timestamp`, every system call succeeds, and unsupported nodes occur only when
the options allow them.

`Scannable` is the part of it the scanner needs. On such a tree the scan succeeds, and
on no other. The directories and files it collects are
exactly the directories and files of `LocalNode.walk`, up to order, and the
entries of each collected directory are those of the tree in bytewise order.
-/

namespace RemoteFs

namespace Upload

open SortBy RemoteFs.Tree

/-- The modification time fits a protobuf `Timestamp`. -/
structure Metadata.TimeSupported (metadata : Metadata) : Prop where
  nsec_nonneg : 0 ≤ metadata.mtimeNsec
  nsec_le : metadata.mtimeNsec ≤ 999999999
  seconds_ge : minTimestampSeconds ≤ metadata.mtime
  seconds_le : metadata.mtime ≤ maxTimestampSeconds

/-- A file name that is valid UTF-8 and one path component. -/
def ValidFileName (name : OsStr) : Prop :=
  ∃ text, name = .utf8 text ∧ ValidName text

mutual

/-- The trees the upload accepts. -/
def Uploadable (options : UploadOptions) : LocalNode → Prop
  | .file metadata content =>
      metadata.TimeSupported ∧ metadata.len = content.length ∧ content.length ≤ i64Max
  | .directory metadata listing entries =>
      metadata.TimeSupported ∧ listing = none ∧ (entries.map Prod.fst).Nodup ∧
        UploadableEntries options entries
  | .symlink metadata target => metadata.TimeSupported ∧ ∃ text, target = .ok (.utf8 text)
  | .special _ _ => options.failOnUnsupportedNodes = false
  | .unreadable _ => False

def UploadableEntries (options : UploadOptions) : List (OsStr × LocalNode) → Prop
  | [] => True
  | (name, node) :: rest =>
      ValidFileName name ∧ Uploadable options node ∧ UploadableEntries options rest

end

theorem uploadableEntries_iff (options : UploadOptions) (entries : List (OsStr × LocalNode)) :
    UploadableEntries options entries ↔
      ∀ entry ∈ entries, ValidFileName entry.1 ∧ Uploadable options entry.2 := by
  induction entries with
  | nil => simp [UploadableEntries]
  | cons entry rest ih =>
      simp only [UploadableEntries, ih, List.mem_cons, forall_eq_or_imp]
      exact and_assoc.symm

theorem uploadable_directory_iff (options : UploadOptions) (metadata : Metadata)
    (listing : Option IoError) (entries : List (OsStr × LocalNode)) :
    Uploadable options (.directory metadata listing entries) ↔
      metadata.TimeSupported ∧ listing = none ∧ (entries.map Prod.fst).Nodup ∧
        ∀ entry ∈ entries, ValidFileName entry.1 ∧ Uploadable options entry.2 := by
  rw [Uploadable, uploadableEntries_iff]

mutual

/-- The trees the scanner accepts: names and targets are UTF-8, the system calls succeed,
and unsupported nodes occur only when the options allow them. -/
def Scannable (options : UploadOptions) : LocalNode → Prop
  | .file _ _ => True
  | .directory _ listing entries => listing = none ∧ ScannableEntries options entries
  | .symlink _ target => ∃ text, target = .ok (.utf8 text)
  | .special _ _ => options.failOnUnsupportedNodes = false
  | .unreadable _ => False

def ScannableEntries (options : UploadOptions) : List (OsStr × LocalNode) → Prop
  | [] => True
  | (name, node) :: rest =>
      (∃ text, name = .utf8 text) ∧ Scannable options node ∧ ScannableEntries options rest

end

theorem scannable_directory_iff (options : UploadOptions) (metadata : Metadata)
    (listing : Option IoError) (entries : List (OsStr × LocalNode)) :
    Scannable options (.directory metadata listing entries) ↔
      listing = none ∧
        ∀ entry ∈ entries, (∃ text, entry.1 = .utf8 text) ∧ Scannable options entry.2 := by
  rw [Scannable]
  refine and_congr_right fun _ => ?_
  induction entries with
  | nil => simp [ScannableEntries]
  | cons entry rest ih =>
      simp only [ScannableEntries, ih, List.mem_cons, forall_eq_or_imp]
      exact and_assoc.symm

theorem scannable_of_uploadable (options : UploadOptions) (node : LocalNode)
    (h : Uploadable options node) : Scannable options node := by
  induction node with
  | directory metadata listing entries ih =>
      obtain ⟨-, hlisting, -, hentries⟩ := (uploadable_directory_iff options _ _ _).mp h
      refine (scannable_directory_iff options _ _ _).mpr ⟨hlisting, fun entry hentry => ?_⟩
      obtain ⟨⟨text, hname, -⟩, hnode⟩ := hentries entry hentry
      exact ⟨⟨text, hname⟩, ih entry hentry hnode⟩
  | leaf node hleaf =>
      cases node with
      | file => trivial
      | directory metadata listing entries => exact absurd rfl (hleaf metadata listing entries)
      | symlink => exact h.2
      | special => exact h
      | unreadable => exact h

def targetText : Except IoError OsStr → String
  | .ok target => target.display
  | .error _ => ""

/-- The scanned form of an entry; unsupported nodes have none. -/
def childOf (root relativePath : PathBuf) (entry : OsStr × LocalNode) :
    Option LocalDirectoryChild :=
  match entry.2 with
  | .file metadata _ =>
      some (.file
        { name := entry.1.display, relativePath := relativePath.join entry.1,
          absolutePath := root ++ relativePath.join entry.1, metadata := metadata })
  | .directory metadata _ _ =>
      some (.directory
        { name := entry.1.display, relativePath := relativePath.join entry.1,
          metadata := metadata })
  | .symlink metadata target =>
      some (.symlink
        { name := entry.1.display, target := targetText target, metadata := metadata })
  | .special _ _ => none
  | .unreadable _ => none

def localDirectory (root relativePath : PathBuf) (metadata : Metadata)
    (entries : List (OsStr × LocalNode)) : LocalDirectory where
  relativePath := relativePath
  absolutePath := root ++ relativePath
  metadata := metadata
  entries := (sortBy (fun entry => byteKey entry.1.asBytes) entries).filterMap
    (childOf root relativePath)

def localDirectory? (root : PathBuf) : PathBuf × LocalNode → Option LocalDirectory
  | (path, .directory metadata _ entries) => some (localDirectory root path metadata entries)
  | (_, .file _ _) => none
  | (_, .symlink _ _) => none
  | (_, .special _ _) => none
  | (_, .unreadable _) => none

/-- The scanned form of a file; its name is the last segment of its path. -/
def localFile (root path : PathBuf) (metadata : Metadata) : LocalFile where
  name := (path.getLast?.map OsStr.display).getD ""
  relativePath := path
  absolutePath := root ++ path
  metadata := metadata

def localFile? (root : PathBuf) : PathBuf × LocalNode → Option LocalFile
  | (path, .file metadata _) => some (localFile root path metadata)
  | (_, .directory _ _ _) => none
  | (_, .symlink _ _) => none
  | (_, .special _ _) => none
  | (_, .unreadable _) => none

structure ScanState.Extends (before after : ScanState) (directories : List LocalDirectory)
    (files : List LocalFile) : Prop where
  directories_perm : after.directories.Perm (before.directories ++ directories)
  files_perm : after.files.Perm (before.files ++ files)

namespace ScanState.Extends

theorem refl (state : ScanState) : state.Extends state [] [] where
  directories_perm := by rw [List.append_nil]
  files_perm := by rw [List.append_nil]

theorem trans {s t u : ScanState} {directories directories' : List LocalDirectory}
    {files files' : List LocalFile} (h : s.Extends t directories files)
    (h' : t.Extends u directories' files') :
    s.Extends u (directories ++ directories') (files ++ files') where
  directories_perm := by
    rw [← List.append_assoc]
    exact h'.directories_perm.trans (h.directories_perm.append_right directories')
  files_perm := by
    rw [← List.append_assoc]
    exact h'.files_perm.trans (h.files_perm.append_right files')

theorem congr {s t : ScanState} {directories directories' : List LocalDirectory}
    {files files' : List LocalFile} (h : s.Extends t directories files)
    (hdirectories : directories.Perm directories') (hfiles : files.Perm files') :
    s.Extends t directories' files' where
  directories_perm := h.directories_perm.trans (hdirectories.append_left _)
  files_perm := h.files_perm.trans (hfiles.append_left _)

theorem recordFile (state : ScanState) (file : LocalFile) :
    state.Extends (state.recordFile file) [] [file] := by
  unfold ScanState.recordFile
  dsimp only
  split
  · exact ⟨by rw [List.append_nil], List.Perm.refl _⟩
  · exact ⟨by rw [List.append_nil], List.Perm.refl _⟩

theorem recordSymlink (state : ScanState) : state.Extends state.recordSymlink [] [] where
  directories_perm := (refl state).directories_perm
  files_perm := (refl state).files_perm

theorem recordDirectory {s t : ScanState} {directories : List LocalDirectory}
    {files : List LocalFile} (h : s.Extends t directories files)
    (directory : LocalDirectory) :
    s.Extends (t.recordDirectory directory) (directory :: directories) files where
  directories_perm := by
    have hlast := h.directories_perm.append_right [directory]
    rw [List.append_assoc] at hlast
    exact hlast.trans ((List.perm_append_singleton directory directories).append_left _)
  files_perm := h.files_perm

end ScanState.Extends

section Scan

variable (options : UploadOptions) (root : PathBuf)

/-- The scan of a directory below `root` succeeds and collects its subtree. -/
def ScansAs (node : LocalNode) : Prop :=
  ∀ metadata listing entries, node = .directory metadata listing entries →
    ∀ relativePath state, ∃ state',
      scanDirectory options node (root ++ relativePath) relativePath state =
        .ok (localDirectory root relativePath metadata entries, state') ∧
      state.Extends state'
        ((LocalNode.walkEntries relativePath entries).filterMap (localDirectory? root))
        ((LocalNode.walkEntries relativePath entries).filterMap (localFile? root))

theorem componentName_join (path : PathBuf) (text : String) :
    componentName (path.join (.utf8 text)) = .ok text := by
  simp [componentName, PathBuf.join, OsStr.toStr]

/-- One turn of the loop records what the entry is and everything below it. -/
theorem scanEntry_spec (relativePath : PathBuf) (entry : OsStr × LocalNode)
    (hname : ∃ text, entry.1 = .utf8 text) (hnode : Scannable options entry.2)
    (hscan : ScansAs options root entry.2) (state : ScanState) :
    ∃ state',
      scanEntry options (root ++ relativePath) relativePath
          ⟨entry.1, entry.2, scanDirectory options entry.2⟩ state =
        .ok (childOf root relativePath entry, state') ∧
      state.Extends state'
        ((LocalNode.walk (relativePath.join entry.1) entry.2).filterMap (localDirectory? root))
        ((LocalNode.walk (relativePath.join entry.1) entry.2).filterMap (localFile? root)) := by
  obtain ⟨name, node⟩ := entry
  obtain ⟨text, rfl⟩ := hname
  have hpath : (root ++ relativePath).join (.utf8 text) =
      root ++ relativePath.join (.utf8 text) := by
    simp [PathBuf.join]
  have hlast : (relativePath.join (.utf8 text)).getLast? = some (.utf8 text) := by
    simp [PathBuf.join]
  unfold scanEntry
  simp only [hpath]
  rw [← hpath, componentName_join, hpath]
  cases node with
  | file metadata content =>
      refine ⟨_, rfl, ?_⟩
      simpa [LocalNode.walk, localDirectory?, localFile?, localFile, List.filterMap_cons, hlast,
        OsStr.display] using ScanState.Extends.recordFile state _
  | directory metadata listing entries =>
      obtain ⟨state', hresult, hextends⟩ :=
        hscan metadata listing entries rfl (relativePath.join (.utf8 text)) state
      refine ⟨state'.recordDirectory
        (localDirectory root (relativePath.join (.utf8 text)) metadata entries), ?_, ?_⟩
      · simp only [Except.mapError, Result.ok_bind, hresult, withContext_ok]
        rfl
      · simpa [LocalNode.walk, localDirectory?, localFile?, List.filterMap_cons] using
          hextends.recordDirectory _
  | symlink metadata target =>
      obtain ⟨targetName, rfl⟩ := hnode
      refine ⟨state.recordSymlink, rfl, ?_⟩
      simpa [LocalNode.walk, localDirectory?, localFile?, List.filterMap_cons] using
        ScanState.Extends.recordSymlink state
  | special metadata kind =>
      rw [Scannable] at hnode
      refine ⟨state, ?_, ?_⟩
      · simp [Except.mapError, hnode, childOf]
      · simpa [LocalNode.walk, localDirectory?, localFile?, List.filterMap_cons] using
          ScanState.Extends.refl state
  | unreadable source => exact hnode.elim

theorem scanEntries_spec (relativePath : PathBuf) (entries : List (OsStr × LocalNode))
    (hentries : ∀ entry ∈ entries, (∃ text, entry.1 = .utf8 text) ∧ Scannable options entry.2)
    (hscan : ∀ entry ∈ entries, ScansAs options root entry.2) (state : ScanState) :
    ∃ state',
      Result.mapState (scanEntry options (root ++ relativePath) relativePath)
          (entries.map fun entry => ⟨entry.1, entry.2, scanDirectory options entry.2⟩) state =
        .ok (entries.map (childOf root relativePath), state') ∧
      state.Extends state'
        ((LocalNode.walkEntries relativePath entries).filterMap (localDirectory? root))
        ((LocalNode.walkEntries relativePath entries).filterMap (localFile? root)) := by
  induction entries generalizing state with
  | nil => exact ⟨state, rfl, ScanState.Extends.refl state⟩
  | cons entry rest ih =>
      obtain ⟨hentry, hrest⟩ := List.forall_mem_cons.mp hentries
      obtain ⟨hscanEntry, hscanRest⟩ := List.forall_mem_cons.mp hscan
      obtain ⟨middle, hfirst, hextends⟩ :=
        scanEntry_spec options root relativePath entry hentry.1 hentry.2 hscanEntry state
      obtain ⟨last, hloop, hextends'⟩ := ih hrest hscanRest middle
      refine ⟨last, ?_, ?_⟩
      · simp only [List.map_cons, Result.mapState, hfirst, hloop, Result.ok_bind]
      · simp only [LocalNode.walkEntries, List.filterMap_append]
        exact hextends.trans hextends'

theorem perm_walkEntries {entries entries' : List (OsStr × LocalNode)}
    (h : entries.Perm entries') (path : PathBuf) :
    (LocalNode.walkEntries path entries).Perm (LocalNode.walkEntries path entries') := by
  rw [LocalNode.walkEntries_eq, LocalNode.walkEntries_eq]
  exact h.flatMap_right _

/-- Every directory of a scannable tree scans as its subtree. -/
theorem scanDirectory_spec (node : LocalNode) (h : Scannable options node) :
    ScansAs options root node := by
  induction node with
  | directory metadata listing entries ih =>
      intro metadata' listing' entries' hnode relativePath state
      cases hnode
      obtain ⟨rfl, hentries⟩ := (scannable_directory_iff options _ _ _).mp h
      have hperm := sortBy_perm (fun entry => byteKey entry.1.asBytes) entries
      obtain ⟨state', hloop, hextends⟩ := scanEntries_spec options root relativePath
        (sortBy (fun entry => byteKey entry.1.asBytes) entries)
        (fun entry hentry => hentries entry (hperm.mem_iff.mp hentry))
        (fun entry hentry => ih entry (hperm.mem_iff.mp hentry)
          (hentries entry (hperm.mem_iff.mp hentry)).2) state
      refine ⟨state', ?_, hextends.congr ?_ ?_⟩
      · have hlisted : sortBy (fun entry => byteKey entry.fileName.asBytes)
            (listEntries options entries) =
            (sortBy (fun entry => byteKey entry.1.asBytes) entries).map
              fun entry => ⟨entry.1, entry.2, scanDirectory options entry.2⟩ := by
          rw [listEntries_eq, map_sortBy]
          intro entry
          rfl
        simp only [scanDirectory, hlisted, hloop, Result.ok_bind, localDirectory,
          List.filterMap_map, Function.id_comp]
      · exact (perm_walkEntries hperm relativePath).filterMap _
      · exact (perm_walkEntries hperm relativePath).filterMap _
  | leaf node hleaf =>
      intro metadata listing entries hnode
      exact absurd hnode (hleaf metadata listing entries)

/-- The scan of a scannable root directory. -/
theorem scanLocalDirectory_spec (hoptions : validateOptions options = .ok ())
    (metadata : Metadata) (listing : Option IoError) (entries : List (OsStr × LocalNode))
    (h : Scannable options (.directory metadata listing entries)) :
    ∃ tree,
      scanLocalDirectoryWithOptions root (.directory metadata listing entries) options =
        .ok tree ∧
      tree.directories.Perm
        ((LocalNode.walk [] (.directory metadata listing entries)).filterMap
          (localDirectory? root)) ∧
      tree.directories.Pairwise (fun left right =>
        encodingOrder left.relativePath ≤ encodingOrder right.relativePath) ∧
      tree.files.Perm
        ((LocalNode.walk [] (.directory metadata listing entries)).filterMap
          (localFile? root)) := by
  obtain ⟨state, hscan, hextends⟩ :=
    scanDirectory_spec options root _ h metadata listing entries rfl [] {}
  rw [List.append_nil] at hscan
  have hresult : scanLocalDirectoryWithOptions root (.directory metadata listing entries)
      options = .ok (LocalTree.mk root
        (sortBy (fun directory => encodingOrder directory.relativePath)
          (state.recordDirectory (localDirectory root [] metadata entries)).directories)
        state.files state.symlinks state.warnings) := by
    simp only [scanLocalDirectoryWithOptions, hoptions, Result.ok_bind, hscan]
    rfl
  refine ⟨_, hresult, ?_⟩
  · exact ⟨(sortBy_perm _ _).trans (hextends.recordDirectory _).directories_perm,
      sortBy_pairwise_le _ _, hextends.files_perm⟩

end Scan

end Upload

end RemoteFs
