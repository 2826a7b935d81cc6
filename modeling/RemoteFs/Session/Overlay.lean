import RemoteFs.Session.Cache
import RemoteFs.Session.Facade

/-!
# The overlay

A file with local content is read from a path below the data directory of the overlay. The
path comes from a stored row; that it stays below the directory rests on the checks of the
row, and on how paths are joined: an absolute path would replace the directory.
-/

namespace RemoteFs

namespace PathBuf

/-- `Path::join`: an absolute path replaces the base, another one follows it. -/
def joinPath (base path : PathBuf) : PathBuf :=
  if path.isAbsolute then path
  else if base.getLast? = some (.utf8 "") then base.dropLast ++ path
  else base ++ path

/-- One segment of a path on top of the components before it: `.` and empty segments are
dropped, `..` takes back the component before it. -/
def pushSegment (absolute : Bool) (components : List OsStr) (segment : OsStr) : List OsStr :=
  if segment = .utf8 "" ∨ segment = .utf8 "." then components
  else if segment = .utf8 ".." then
    if components.getLast? = none ∧ absolute = true then []
    else if components.getLast? = none ∨ components.getLast? = some (.utf8 "..") then
      components ++ [segment]
    else components.dropLast
  else components ++ [segment]

/-- A path after lexical normalization: whether it starts at the root, and its components. -/
structure Normalized where
  absolute : Bool
  components : List OsStr
  deriving DecidableEq, Repr

def normalize (path : PathBuf) : Normalized where
  absolute := path.isAbsolute
  components := path.foldl (pushSegment path.isAbsolute) []

structure Normalized.IsPrefix (base path : Normalized) : Prop where
  absolute : base.absolute = path.absolute
  components : base.components <+: path.components

theorem prefix_pushSegment {absolute : Bool} {segment : OsStr} (h : segment ≠ .utf8 "..")
    (components : List OsStr) : components <+: pushSegment absolute components segment := by
  rw [pushSegment, if_neg h]
  split
  · exact List.prefix_rfl
  · exact List.prefix_append _ _

theorem prefix_foldl_pushSegment {absolute : Bool} {path : PathBuf}
    (h : path.hasParentDir = false) (components : List OsStr) :
    components <+: path.foldl (pushSegment absolute) components := by
  induction path generalizing components with
  | nil => exact List.prefix_rfl
  | cons segment path ih =>
      rw [hasParentDir, List.contains_cons, Bool.or_eq_false_iff, beq_eq_false_iff_ne] at h
      exact (prefix_pushSegment h.1.symm components).trans (ih h.2 _)

theorem isAbsolute_append {base : PathBuf} (h : ∃ segment ∈ base, segment ≠ .utf8 "")
    (path : PathBuf) : isAbsolute (base ++ path) = isAbsolute base := by
  obtain ⟨segment, hmem, hne⟩ := h
  cases base with
  | nil => cases hmem
  | cons first base =>
      by_cases hfirst : first = .utf8 ""
      · subst hfirst
        have hbase : base ≠ [] := by
          rintro rfl
          exact hne (List.mem_singleton.mp hmem)
        have hpos := List.length_pos_iff.mpr hbase
        simp only [isAbsolute, List.cons_append, List.head?_cons, List.length_cons,
          List.length_append, true_and, decide_eq_decide]
        omega
      · simp [isAbsolute, hfirst]

/-- Below a directory, a path that is not absolute and has no `..` stays below it. -/
theorem normalize_isPrefix_joinPath {base path : PathBuf} {name : OsStr}
    (hname : name ≠ .utf8 "") (habsolute : path.isAbsolute = false)
    (hparent : path.hasParentDir = false) :
    (normalize (base.joinPath [name])).IsPrefix
      (normalize ((base.joinPath [name]).joinPath path)) := by
  have hsingle : PathBuf.isAbsolute [name] = false := by simp [isAbsolute]
  have hlast : (base.joinPath [name]).getLast? = some name := by
    rw [joinPath, hsingle]
    simp only [Bool.false_eq_true, if_false]
    split
    · exact List.getLast?_concat
    · exact List.getLast?_concat
  have hjoin : (base.joinPath [name]).joinPath path = base.joinPath [name] ++ path := by
    rw [joinPath, habsolute, hlast]
    simp [hname]
  have hkeeps := isAbsolute_append ⟨name, List.mem_of_getLast? hlast, hname⟩ path
  rw [hjoin]
  refine ⟨hkeeps.symm, ?_⟩
  rw [normalize, normalize, hkeeps, List.foldl_append]
  exact prefix_foldl_pushSegment hparent _

end PathBuf

namespace Session

structure OverlayStore where
  root : PathBuf

namespace OverlayStore

def dataDirectory (overlay : OverlayStore) : PathBuf :=
  overlay.root.joinPath [.utf8 "data"]

def readRange (overlay : OverlayStore) (files : PathBuf → Option Bytes) (relative : PathBuf)
    (offset size : ℕ) (reads : Cache.FileReads) : Except SessionError Bytes :=
  Cache.readFileRange files (overlay.dataDirectory.joinPath relative) offset size reads

/-- A path that is not absolute and has no `..` is read below the data directory. -/
theorem dataDirectory_isPrefix (overlay : OverlayStore) {relative : PathBuf}
    (habsolute : relative.isAbsolute = false) (hparent : relative.hasParentDir = false) :
    overlay.dataDirectory.normalize.IsPrefix (overlay.dataDirectory.joinPath relative).normalize :=
  PathBuf.normalize_isPrefix_joinPath (by decide) habsolute hparent

end OverlayStore

theorem validateInode_of_row {row : InodeRow} {inode : StoreInode}
    (h : validateInodeRow row = .ok inode) : validateInode inode = .ok () := by
  simp only [validateInodeRow, Result.bind_eq_ok_iff] at h
  obtain ⟨id, -, parent, -, kind, -, mode, -, mtime, -, tombstone, -, fileRemoteDigest, -,
    fileContentDirty, -, directoryRemoteDigest, -, directoryLoaded, -, ⟨⟩, hvalid, hresult⟩ := h
  cases hresult
  exact (withContext_eq_ok_iff _ _ _).mp hvalid

theorem validateInodeKind_of_validateInode {inode : StoreInode}
    (h : validateInode inode = .ok ()) : validateInodeKind inode = .ok () := by
  unfold validateInode at h
  split at h
  · cases h
  · exact (Result.check_bind_eq_ok_iff _ _ _).mp h |>.2

/-- What the backing of an accepted file is: one of the two, and an overlay path that is
relative, not empty and without `..`. -/
theorem validateFileInode_backing {inode : StoreInode} (h : validateFileInode inode = .ok ()) :
    (inode.fileRemoteDigest.isSome = !inode.fileOverlayPath.isSome) ∧
      ∀ path ∈ inode.fileOverlayPath,
        path.isEmpty = false ∧ path.isAbsolute = false ∧ path.hasParentDir = false := by
  unfold validateFileInode at h
  split at h
  · cases h
  · split at h
    · cases h
    · next hpath =>
        split at h
        · cases h
        · cases hoverlay : inode.fileOverlayPath with
          | none =>
              cases hdigest : inode.fileRemoteDigest with
              | none =>
                  rw [hoverlay, hdigest] at h
                  cases h
              | some digest => exact ⟨rfl, fun path hmem => by cases hmem⟩
          | some path =>
              cases hdigest : inode.fileRemoteDigest with
              | some digest =>
                  rw [hoverlay, hdigest] at h
                  cases h
              | none =>
                  refine ⟨rfl, ?_⟩
                  intro path' hmem
                  cases hmem
                  rw [hoverlay, Option.any_some] at hpath
                  simpa [and_assoc] using hpath

/-- An accepted file has one backing, which is what is read: a path that stays below the data
directory of the overlay, or a digest. -/
theorem accepted_file_backing {row : InodeRow} {inode : StoreInode}
    (hrow : validateInodeRow row = .ok inode) (hkind : inode.kind = .file) :
    (∃ path, inode.fileOverlayPath = some path ∧ inode.fileRemoteDigest = none ∧
      (∀ overlay : OverlayStore, overlay.dataDirectory.normalize.IsPrefix
        (overlay.dataDirectory.joinPath path).normalize) ∧
      ∀ env session id offset size, readStored env session id inode offset size =
        (env.readOverlay path offset size, session)) ∨
    ∃ digest, inode.fileOverlayPath = none ∧ inode.fileRemoteDigest = some digest ∧
      ∀ env session id offset size, (readStored env session id inode offset size).1 =
        (env.readRange digest offset size).map Prod.fst := by
  have hvalid := validateInodeKind_of_validateInode (validateInode_of_row hrow)
  rw [validateInodeKind, hkind] at hvalid
  obtain ⟨hone, hpaths⟩ := validateFileInode_backing hvalid
  cases hoverlay : inode.fileOverlayPath with
  | some path =>
      rw [hoverlay] at hone
      have hdigest : inode.fileRemoteDigest = none := by simpa using hone
      obtain ⟨-, habsolute, hparent⟩ := hpaths path hoverlay
      refine .inl ⟨path, rfl, hdigest,
        fun overlay => overlay.dataDirectory_isPrefix habsolute hparent, ?_⟩
      intro env session id offset size
      simp [readStored, hkind, hoverlay]
  | none =>
      rw [hoverlay] at hone
      obtain ⟨digest, hdigest⟩ := Option.isSome_iff_exists.mp (by simpa using hone)
      refine .inr ⟨digest, rfl, hdigest, ?_⟩
      intro env session id offset size
      simp only [readStored, hkind, hoverlay, hdigest, reduceCtorEq, if_false, ne_eq,
        not_true_eq_false]
      cases env.readRange digest offset size with
      | ok read => rfl
      | error e => rfl

namespace Sample

def localRow : InodeRow where
  id := 2
  parentId := some 1
  name := "notes"
  kind := "file"
  mode := none
  mtimeSeconds := none
  mtimeNanos := none
  tombstone := 0
  fileRemoteDigest := none
  fileOverlayPath := some "objects/./7"
  fileContentDirty := some 1
  symlinkTarget := none
  directoryRemoteDigest := none
  directoryLoaded := none

end Sample

/-- The theorem at a file with local content. -/
theorem accepted_file_backing_sample :
    ∃ inode, validateInodeRow Sample.localRow = .ok inode ∧
      ((∃ path, inode.fileOverlayPath = some path ∧ inode.fileRemoteDigest = none ∧
        (∀ overlay : OverlayStore, overlay.dataDirectory.normalize.IsPrefix
          (overlay.dataDirectory.joinPath path).normalize) ∧
        ∀ env session id offset size, readStored env session id inode offset size =
          (env.readOverlay path offset size, session)) ∨
      ∃ digest, inode.fileOverlayPath = none ∧ inode.fileRemoteDigest = some digest ∧
        ∀ env session id offset size, (readStored env session id inode offset size).1 =
          (env.readRange digest offset size).map Prod.fst) := by
  have hrow : ∃ inode, validateInodeRow Sample.localRow = .ok inode ∧ inode.kind = .file :=
    ⟨_, rfl, rfl⟩
  obtain ⟨inode, hrow, hkind⟩ := hrow
  exact ⟨inode, hrow, accepted_file_backing hrow hkind⟩

end Session

end RemoteFs
