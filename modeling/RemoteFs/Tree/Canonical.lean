import RemoteFs.Tree.Builder

/-!
# What the encoder returns

`canonicalDirectory` is the message of a builder written down directly: the
nodes of each kind sorted by name, with the properties of their metadata. The
encoder returns it exactly on the builders whose names are pairwise different
and whose times are supported.
-/

namespace RemoteFs

namespace Tree

open Reapi SortBy

def FileEntry.node (entry : FileEntry) : FileNode where
  name := entry.name
  digest := some entry.digest.toReapi
  isExecutable :=
    (entry.metadata.properties.bind fun properties => properties.unixMode).getD 0 &&& 0o111 != 0
  nodeProperties := entry.metadata.properties

def DirectoryEntry.node (entry : DirectoryEntry) : DirectoryNode where
  name := entry.name
  digest := some entry.digest.toReapi
  nodeProperties := entry.metadata.properties

def SymlinkEntry.node (entry : SymlinkEntry) : SymlinkNode where
  name := entry.name
  target := entry.target
  nodeProperties := entry.metadata.properties

theorem fileNode_eq_ok_iff (entry : FileEntry) (warnings : TreeWarnings)
    (result : FileNode × TreeWarnings) :
    fileNode entry warnings = .ok result ↔
      entry.metadata.TimeSupported ∧
        result = (entry.node,
          warnings.merge (entry.metadata.modeWarnings [.utf8 entry.name])) := by
  simp only [fileNode, Result.bind_eq_ok_iff, withContext_eq_ok_iff,
    normalizeOptionalMetadata_some_eq_ok_iff, Except.ok.injEq]
  constructor
  · rintro ⟨normalized, ⟨hsupported, rfl⟩, rfl⟩
    exact ⟨hsupported, rfl⟩
  · rintro ⟨hsupported, rfl⟩
    exact ⟨_, ⟨hsupported, rfl⟩, rfl⟩

theorem directoryNode_eq_ok_iff (entry : DirectoryEntry) (warnings : TreeWarnings)
    (result : DirectoryNode × TreeWarnings) :
    directoryNode entry warnings = .ok result ↔
      entry.metadata.TimeSupported ∧
        result = (entry.node,
          warnings.merge (entry.metadata.modeWarnings [.utf8 entry.name])) := by
  simp only [directoryNode, Result.bind_eq_ok_iff, withContext_eq_ok_iff,
    normalizeOptionalMetadata_some_eq_ok_iff, Except.ok.injEq]
  constructor
  · rintro ⟨normalized, ⟨hsupported, rfl⟩, rfl⟩
    exact ⟨hsupported, rfl⟩
  · rintro ⟨hsupported, rfl⟩
    exact ⟨_, ⟨hsupported, rfl⟩, rfl⟩

theorem symlinkNode_eq_ok_iff (entry : SymlinkEntry) (warnings : TreeWarnings)
    (result : SymlinkNode × TreeWarnings) :
    symlinkNode entry warnings = .ok result ↔
      entry.metadata.TimeSupported ∧
        result = (entry.node, (targetWarnings entry warnings).merge
          (entry.metadata.modeWarnings [.utf8 entry.name])) := by
  simp only [symlinkNode, Result.bind_eq_ok_iff, withContext_eq_ok_iff,
    normalizeOptionalMetadata_some_eq_ok_iff, Except.ok.injEq]
  constructor
  · rintro ⟨normalized, ⟨hsupported, rfl⟩, rfl⟩
    exact ⟨hsupported, rfl⟩
  · rintro ⟨hsupported, rfl⟩
    exact ⟨_, ⟨hsupported, rfl⟩, rfl⟩

namespace DirectoryBuilder

/-- The entries have pairwise different names and supported times. -/
structure Encodable (builder : DirectoryBuilder) : Prop where
  names_nodup : builder.names.Nodup
  times : ∀ metadata ∈ builder.allMetadata, metadata.TimeSupported

def canonicalDirectory (self : DirectoryBuilder) : Directory where
  files := (sortBy (fun entry => nameKey entry.name) self.files).map FileEntry.node
  directories :=
    (sortBy (fun entry => nameKey entry.name) self.directories).map DirectoryEntry.node
  symlinks := (sortBy (fun entry => nameKey entry.name) self.symlinks).map SymlinkEntry.node
  nodeProperties := self.metadata.bind NodeMetadata.properties

def rootWarnings (self : DirectoryBuilder) : TreeWarnings :=
  match self.metadata with
  | none => {}
  | some metadata => TreeWarnings.merge {} (metadata.modeWarnings [.utf8 "."])

/-- The warnings of the directory and of its sorted entries. -/
def canonicalWarnings (self : DirectoryBuilder) : TreeWarnings :=
  let warnings := (sortEntries self).files.foldl
    (fun warnings entry => warnings.merge (entry.metadata.modeWarnings [.utf8 entry.name]))
    self.rootWarnings
  let warnings := (sortEntries self).directories.foldl
    (fun warnings entry => warnings.merge (entry.metadata.modeWarnings [.utf8 entry.name]))
    warnings
  (sortEntries self).symlinks.foldl
    (fun warnings entry => (targetWarnings entry warnings).merge
      (entry.metadata.modeWarnings [.utf8 entry.name]))
    warnings

def canonical [Sha256] [Prost] (self : DirectoryBuilder) : EncodedDirectory where
  digest := Digest.forBytes (Prost.encodeToVec self.canonicalDirectory)
  bytes := Prost.encodeToVec self.canonicalDirectory
  directory := self.canonicalDirectory
  warnings := self.canonicalWarnings

theorem names_sortEntries_perm (self : DirectoryBuilder) :
    (sortEntries self).names.Perm self.names := by
  have hfiles := (sortBy_perm (fun entry => nameKey entry.name) self.files).map FileEntry.name
  have hdirectories :=
    (sortBy_perm (fun entry => nameKey entry.name) self.directories).map DirectoryEntry.name
  have hsymlinks :=
    (sortBy_perm (fun entry => nameKey entry.name) self.symlinks).map SymlinkEntry.name
  exact (hfiles.append hdirectories).append hsymlinks

theorem normalizeRoot_eq_ok_iff (self : DirectoryBuilder)
    (result : Option NodeProperties × TreeWarnings) :
    normalizeOptionalMetadata self.metadata [.utf8 "."] {} = .ok result ↔
      (∀ metadata ∈ self.metadata, metadata.TimeSupported) ∧
        result = (self.metadata.bind NodeMetadata.properties, self.rootWarnings) := by
  unfold rootWarnings
  cases hmetadata : self.metadata with
  | none => simp [normalizeOptionalMetadata, eq_comm]
  | some metadata => simp [normalizeOptionalMetadata_some_eq_ok_iff]

theorem times_iff (self : DirectoryBuilder) :
    (∀ metadata ∈ self.allMetadata, metadata.TimeSupported) ↔
      (∀ metadata ∈ self.metadata, metadata.TimeSupported) ∧
        (∀ entry ∈ self.files, entry.metadata.TimeSupported) ∧
          (∀ entry ∈ self.directories, entry.metadata.TimeSupported) ∧
            ∀ entry ∈ self.symlinks, entry.metadata.TimeSupported := by
  simp only [allMetadata, List.mem_append, Option.mem_toList, Option.mem_def, List.mem_map,
    or_imp, forall_and, forall_exists_index, and_imp, forall_apply_eq_imp_iff₂, and_assoc]

/-- The specification of the encoder. -/
theorem encode_eq_ok_iff [Sha256] [Prost] (self : DirectoryBuilder)
    (encoded : EncodedDirectory) :
    self.encode = .ok encoded ↔ self.Encodable ∧ encoded = self.canonical := by
  have hnames := (names_sortEntries_perm self).nodup_iff
  have hfiles := Result.mapState_eq_ok_iff
    (fun entry warnings => withContext (fileNode entry warnings)
      s!"encode file node {entry.name}")
    (fun entry => entry.metadata.TimeSupported) FileEntry.node
    (fun warnings entry => warnings.merge (entry.metadata.modeWarnings [.utf8 entry.name]))
    (fun entry warnings result => by rw [withContext_eq_ok_iff, fileNode_eq_ok_iff])
  have hdirectories := Result.mapState_eq_ok_iff
    (fun entry warnings => withContext (directoryNode entry warnings)
      s!"encode directory node {entry.name}")
    (fun entry => entry.metadata.TimeSupported) DirectoryEntry.node
    (fun warnings entry => warnings.merge (entry.metadata.modeWarnings [.utf8 entry.name]))
    (fun entry warnings result => by rw [withContext_eq_ok_iff, directoryNode_eq_ok_iff])
  have hsymlinks := Result.mapState_eq_ok_iff
    (fun entry warnings => withContext (symlinkNode entry warnings)
      s!"encode symlink node {entry.name}")
    (fun entry => entry.metadata.TimeSupported) SymlinkEntry.node
    (fun warnings entry => (targetWarnings entry warnings).merge
      (entry.metadata.modeWarnings [.utf8 entry.name]))
    (fun entry warnings result => by rw [withContext_eq_ok_iff, symlinkNode_eq_ok_iff])
  have hroot : (sortEntries self).rootWarnings = self.rootWarnings := rfl
  unfold encode
  rw [Result.check_bind_eq_ok_iff]
  simp only [Result.bind_eq_ok_iff, withContext_eq_ok_iff, rejectDuplicateNames_eq_ok_iff,
    normalizeRoot_eq_ok_iff, hfiles, hdirectories, hsymlinks, hnames, hroot, Except.ok.injEq]
  constructor
  · rintro ⟨hnodup, root, ⟨htroot, rfl⟩, files, ⟨htfiles, rfl⟩, directories, ⟨htdirs, rfl⟩,
      symlinks, ⟨htlinks, rfl⟩, rfl⟩
    refine ⟨⟨hnodup, (times_iff self).mpr ⟨htroot, ?_, ?_, ?_⟩⟩, rfl⟩
    · exact fun entry hentry => htfiles entry ((mem_sortBy _ _ _).mpr hentry)
    · exact fun entry hentry => htdirs entry ((mem_sortBy _ _ _).mpr hentry)
    · exact fun entry hentry => htlinks entry ((mem_sortBy _ _ _).mpr hentry)
  · rintro ⟨⟨hnodup, htimes⟩, rfl⟩
    obtain ⟨htroot, htfiles, htdirs, htlinks⟩ := (times_iff self).mp htimes
    refine ⟨hnodup, _, ⟨htroot, rfl⟩, _, ⟨?_, rfl⟩, _, ⟨?_, rfl⟩, _, ⟨?_, rfl⟩, rfl⟩
    · exact fun entry hentry => htfiles entry ((mem_sortBy _ _ _).mp hentry)
    · exact fun entry hentry => htdirs entry ((mem_sortBy _ _ _).mp hentry)
    · exact fun entry hentry => htlinks entry ((mem_sortBy _ _ _).mp hentry)

end DirectoryBuilder

end Tree

end RemoteFs
