import Mathlib.Data.Finset.Card
import RemoteFs.Upload.EncodeSpec

/-!
# Scans that succeed

A scan that succeeds was of a scannable tree, so the lists it collects are those of
`LocalNode.walk`. What it counts is an invariant of its state: each regular file either
adds its `(dev, ino)` pair to the set of pairs or one to the count of hard links.
-/

namespace RemoteFs

namespace Upload

open SortBy RemoteFs.Tree

section Scan

variable {options : UploadOptions}

theorem utf8_of_componentName {path : PathBuf} {fileName : OsStr} {name : String}
    (h : componentName (path.join fileName) = .ok name) : ∃ text, fileName = .utf8 text := by
  cases fileName with
  | utf8 text => exact ⟨text, rfl⟩
  | invalid bytes lossy => simp [componentName, PathBuf.join, OsStr.toStr] at h

/-- What one turn of the loop over the entries of a directory can do. -/
theorem scanEntry_cases {path relativePath : PathBuf} {entry : ListedEntry}
    {state state' : ScanState} {child : Option LocalDirectoryChild}
    (h : scanEntry options path relativePath entry state = .ok (child, state')) :
    (∃ text, entry.fileName = .utf8 text) ∧
      ((∃ metadata content file, entry.node = .file metadata content ∧
          state' = state.recordFile file) ∨
        (∃ metadata listing entries childPath childRelativePath directory middle,
          entry.node = .directory metadata listing entries ∧
          entry.scan childPath childRelativePath state = .ok (directory, middle) ∧
          state' = middle.recordDirectory directory) ∨
        (∃ metadata text, entry.node = .symlink metadata (.ok (.utf8 text)) ∧
          state' = state.recordSymlink) ∨
        ∃ metadata kind, entry.node = .special metadata kind ∧
          options.failOnUnsupportedNodes = false ∧ state' = state) := by
  simp only [scanEntry, Result.bind_eq_ok_iff, Result.mapError_eq_ok_iff] at h
  obtain ⟨name, hname, h⟩ := h
  refine ⟨utf8_of_componentName hname, ?_⟩
  cases hnode : entry.node with
  | unreadable source =>
      rw [hnode] at h
      cases h
  | file metadata content =>
      rw [hnode] at h
      cases h
      exact .inl ⟨metadata, content, _, rfl, rfl⟩
  | directory metadata listing entries =>
      rw [hnode] at h
      simp only [Result.bind_eq_ok_iff, withContext_eq_ok_iff] at h
      obtain ⟨⟨directory, middle⟩, hscan, h⟩ := h
      cases h
      exact .inr (.inl ⟨metadata, listing, entries, _, _, directory, middle, rfl, hscan, rfl⟩)
  | symlink metadata target =>
      rw [hnode] at h
      cases target with
      | error source => cases h
      | ok target =>
          cases target with
          | invalid bytes lossy => cases h
          | utf8 text =>
              cases h
              exact .inr (.inr (.inl ⟨metadata, text, rfl, rfl⟩))
  | special metadata kind =>
      rw [hnode] at h
      cases hfail : options.failOnUnsupportedNodes with
      | true =>
          simp only [hfail, if_true] at h
          cases h
      | false =>
          simp only [hfail, Bool.false_eq_true, if_false] at h
          cases h
          exact .inr (.inr (.inr ⟨metadata, kind, rfl, rfl, rfl⟩))

section Keeps

variable {P : ScanState → Prop} (hfile : ∀ state file, P state → P (state.recordFile file))
  (hdirectory : ∀ state directory, P state → P (state.recordDirectory directory))
  (hsymlink : ∀ state, P state → P state.recordSymlink)

include hfile hdirectory hsymlink

theorem scanEntry_ok {path relativePath : PathBuf} {entry : ListedEntry}
    (hscan : ∀ path relativePath state directory state',
      entry.scan path relativePath state = .ok (directory, state') →
        Scannable options entry.node ∧ (P state → P state'))
    (state : ScanState) (child : Option LocalDirectoryChild) (state' : ScanState)
    (h : scanEntry options path relativePath entry state = .ok (child, state')) :
    ((∃ text, entry.fileName = .utf8 text) ∧ Scannable options entry.node) ∧
      (P state → P state') := by
  obtain ⟨hname, hcases⟩ := scanEntry_cases h
  obtain ⟨metadata, content, file, hnode, rfl⟩ |
    ⟨metadata, listing, entries, childPath, childRelativePath, directory, middle, hnode,
      hchild, rfl⟩ | ⟨metadata, text, hnode, rfl⟩ | ⟨metadata, kind, hnode, hfail, rfl⟩ := hcases
  · refine ⟨⟨hname, ?_⟩, hfile state file⟩
    rw [hnode, Scannable]
    trivial
  · obtain ⟨hscannable, hkeeps⟩ := hscan _ _ _ _ _ hchild
    exact ⟨⟨hname, hscannable⟩, fun hstate => hdirectory _ _ (hkeeps hstate)⟩
  · refine ⟨⟨hname, ?_⟩, hsymlink state⟩
    rw [hnode, Scannable]
    exact ⟨text, rfl⟩
  · refine ⟨⟨hname, ?_⟩, id⟩
    rw [hnode, Scannable]
    exact hfail

/-- A scan that succeeds was of a scannable tree, and keeps what its records keep. -/
theorem scanDirectory_ok (node : LocalNode) :
    ∀ path relativePath state directory state',
      scanDirectory options node path relativePath state = .ok (directory, state') →
      Scannable options node ∧ (P state → P state') := by
  induction node with
  | leaf node hleaf =>
      intro path relativePath state directory state' h
      cases node with
      | directory metadata listing entries => exact absurd rfl (hleaf metadata listing entries)
      | file => simp [scanDirectory] at h
      | symlink => simp [scanDirectory] at h
      | special => simp [scanDirectory] at h
      | unreadable => simp [scanDirectory] at h
  | directory metadata listing entries ih =>
      intro path relativePath state directory state' h
      cases listing with
      | some source => simp [scanDirectory] at h
      | none =>
          simp only [scanDirectory, Result.bind_eq_ok_iff] at h
          obtain ⟨⟨children, last⟩, hloop, h⟩ := h
          cases h
          have hstep : ∀ entry ∈ sortBy (fun entry : ListedEntry =>
              byteKey entry.fileName.asBytes) (listEntries options entries), ∀ s child s',
              scanEntry options path relativePath entry s = .ok (child, s') →
                ((∃ text, entry.fileName = .utf8 text) ∧ Scannable options entry.node) ∧
                  (P s → P s') := by
            intro entry hentry
            rw [mem_sortBy, listEntries_eq] at hentry
            obtain ⟨listed, hlisted, rfl⟩ := List.mem_map.mp hentry
            exact scanEntry_ok hfile hdirectory hsymlink (ih listed hlisted)
          obtain ⟨hentries, hkeeps⟩ :=
            Result.mapState_forall _ _ hstep state children last hloop
          refine ⟨(scannable_directory_iff options _ _ _).mpr ⟨rfl, fun entry hentry => ?_⟩,
            hkeeps⟩
          refine hentries ⟨entry.1, entry.2, scanDirectory options entry.2⟩ ?_
          rw [mem_sortBy, listEntries_eq]
          exact List.mem_map_of_mem hentry

end Keeps

/-! ### Hard links -/

def Metadata.identity (metadata : Metadata) : UInt64 × UInt64 :=
  (metadata.dev, metadata.ino)

/-- The files of a scan are counted: each is the first with its pair or a hard link. No
other warning is counted by the scan. -/
structure ScanState.Counted (state : ScanState) : Prop where
  pairs_nodup : state.hardLinks.Nodup
  mem_pairs_iff : ∀ pair, pair ∈ state.hardLinks ↔
    pair ∈ state.files.map fun file => file.metadata.identity
  count : state.warnings.hardLinks + state.hardLinks.length = state.files.length
  only : state.warnings = { hardLinks := state.warnings.hardLinks }

theorem counted_start : ScanState.Counted {} where
  pairs_nodup := List.nodup_nil
  mem_pairs_iff _ := Iff.rfl
  count := rfl
  only := rfl

theorem ScanState.Counted.recordFile {state : ScanState} (h : state.Counted)
    (file : LocalFile) : (state.recordFile file).Counted := by
  have hfiles : ∀ pair, pair ∈ (state.files ++ [file]).map (fun f => f.metadata.identity) ↔
      pair ∈ state.hardLinks ∨ pair = file.metadata.identity := by
    intro pair
    rw [List.map_append, List.mem_append, h.mem_pairs_iff]
    simp
  have hcount := h.count
  rw [ScanState.recordFile]
  by_cases hseen : (file.metadata.dev, file.metadata.ino) ∈ state.hardLinks
  · simp only [if_pos hseen]
    refine ⟨h.pairs_nodup, fun pair => ?_, ?_, ?_⟩
    · rw [hfiles]
      constructor
      · exact .inl
      · rintro (hmem | rfl)
        · exact hmem
        · exact hseen
    · simp only [List.length_append, List.length_singleton]
      omega
    · rw [h.only]
  · simp only [if_neg hseen]
    refine ⟨List.nodup_cons.mpr ⟨hseen, h.pairs_nodup⟩, fun pair => ?_, ?_, h.only⟩
    · rw [hfiles, List.mem_cons, or_comm]
      rfl
    · simp only [List.length_append, List.length_cons, List.length_nil]
      omega

theorem ScanState.Counted.recordDirectory {state : ScanState} (h : state.Counted)
    (directory : LocalDirectory) : (state.recordDirectory directory).Counted :=
  ⟨h.pairs_nodup, h.mem_pairs_iff, h.count, h.only⟩

theorem ScanState.Counted.recordSymlink {state : ScanState} (h : state.Counted) :
    state.recordSymlink.Counted :=
  ⟨h.pairs_nodup, h.mem_pairs_iff, h.count, h.only⟩

theorem ScanState.Counted.hardLinks_eq {state : ScanState} (h : state.Counted) :
    state.warnings.hardLinks =
      state.files.length - (state.files.map fun file => file.metadata.identity).toFinset.card := by
  have hpairs : (state.files.map fun file => file.metadata.identity).toFinset =
      state.hardLinks.toFinset := by
    ext pair
    rw [List.mem_toFinset, List.mem_toFinset, h.mem_pairs_iff]
  have hcount := h.count
  rw [hpairs, List.toFinset_card_of_nodup h.pairs_nodup]
  omega

/-- What a scan that succeeded has collected. -/
theorem scanLocalDirectory_ok {root : PathBuf} {node : LocalNode} {tree : LocalTree}
    (h : scanLocalDirectoryWithOptions root node options = .ok tree) :
    ∃ metadata listing entries, node = .directory metadata listing entries ∧
      tree.directories.Perm ((LocalNode.walk [] node).filterMap (localDirectory? root)) ∧
      tree.files.Perm ((LocalNode.walk [] node).filterMap (localFile? root)) ∧
      tree.warnings = { hardLinks := tree.warnings.hardLinks } ∧
      tree.warnings.hardLinks = tree.files.length -
        (tree.files.map fun file => file.metadata.identity).toFinset.card := by
  have hscan := h
  unfold scanLocalDirectoryWithOptions at hscan
  rw [Result.check_bind_eq_ok_iff] at hscan
  obtain ⟨hoptions, hscan⟩ := hscan
  cases node with
  | unreadable source => cases hscan
  | file metadata content => cases hscan
  | symlink metadata target => cases hscan
  | special metadata kind => cases hscan
  | directory metadata listing entries =>
      obtain ⟨⟨directory, state⟩, hscan, heq⟩ := (Result.bind_eq_ok_iff _ _ _).mp hscan
      have hwarnings : tree.warnings = state.warnings ∧ tree.files = state.files := by
        cases heq
        exact ⟨rfl, rfl⟩
      obtain ⟨hscannable, hkeeps⟩ := scanDirectory_ok (P := ScanState.Counted)
        (fun _ file h => ScanState.Counted.recordFile h file)
        (fun _ directory h => ScanState.Counted.recordDirectory h directory)
        (fun _ h => ScanState.Counted.recordSymlink h) _ _ _ _ _ _ hscan
      have hcounted : state.Counted := hkeeps counted_start
      obtain ⟨tree', htree', hdirectories, -, hfiles⟩ := scanLocalDirectory_spec options root
        hoptions metadata listing entries hscannable
      rw [h, Except.ok.injEq] at htree'
      rw [← htree'] at hdirectories hfiles
      refine ⟨metadata, listing, entries, rfl, hdirectories, hfiles, ?_, ?_⟩
      · rw [hwarnings.1]
        exact hcounted.only
      · rw [hwarnings.1, hwarnings.2]
        exact hcounted.hardLinks_eq

end Scan

end Upload

end RemoteFs
