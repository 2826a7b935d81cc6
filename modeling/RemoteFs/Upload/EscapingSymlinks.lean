import RemoteFs.Upload.Warnings

/-!
# Symlinks that escape the tree

A relative target is followed from the directory of the symlink: a component goes down, `..`
goes up, and the target escapes the tree when it goes up from the root. `follow` says so with
the paths of the tree.

The encoder sees one directory at a time and follows a target as if the directory were the
root, and it follows absolute targets too. So it counts every symlink that escapes, and
besides these the ones that only leave their own directory.
-/

namespace RemoteFs

namespace Upload

open RemoteFs.Tree Cas

/-- Follow the components of a target from a directory of the tree; absent once they go above
the root. -/
def follow : PathBuf → List String → Option PathBuf
  | directory, [] => some directory
  | directory, component :: rest =>
      if component = "" ∨ component = "." then follow directory rest
      else if component = ".." then
        if directory = [] then none else follow directory.dropLast rest
      else follow (directory.join (.utf8 component)) rest

/-- The target of a symlink, followed from its directory, goes above the root. -/
def leavesRoot (link : LocalNode.WalkedSymlink) : Bool :=
  (follow link.1.dropLast (splitSlash link.2)).isNone

/-- The target goes above the directory it is followed from, wherever that is. -/
def climbs (target : String) : Bool :=
  (follow [] (splitSlash target)).isNone

/-- A symlink whose relative target escapes the tree. -/
def escapesTree (link : LocalNode.WalkedSymlink) : Bool :=
  !isAbsolute link.2 && leavesRoot link

theorem isNone_follow (components : List String) :
    ∀ directory, (follow directory components).isNone =
      escapesFrom directory.length components := by
  induction components with
  | nil =>
      intro directory
      rfl
  | cons component rest ih =>
      intro directory
      rw [follow, escapesFrom]
      split
      · exact ih directory
      · split
        · cases directory with
          | nil => rfl
          | cons first directory =>
              have hlength : (first :: directory).dropLast.length =
                  (first :: directory).length - 1 := List.length_dropLast
              simp only [reduceCtorEq, if_false, List.length_cons, Nat.add_one_ne_zero]
              rw [ih, hlength, List.length_cons]
        · rw [ih]
          simp [PathBuf.join]

/-- The encoder follows a target from the root, whatever the directory of the symlink. -/
theorem targetEscapes_eq_climbs (target : String) : targetEscapes target = climbs target :=
  (isNone_follow _ []).symm

theorem escapesFrom_of_le (components : List String) :
    ∀ {high deep : ℕ}, high ≤ deep → escapesFrom deep components = true →
      escapesFrom high components = true := by
  induction components with
  | nil =>
      intro high deep _ h
      exact h
  | cons component rest ih =>
      intro high deep hle h
      rw [escapesFrom] at h ⊢
      split
      · next hskip =>
          rw [if_pos hskip] at h
          exact ih hle h
      · next hskip =>
          rw [if_neg hskip] at h
          split
          · next hup =>
              rw [if_pos hup] at h
              split
              · rfl
              · next hhigh =>
                  have hdeep : deep ≠ 0 := by omega
                  rw [if_neg hdeep] at h
                  exact ih (Nat.sub_le_sub_right hle 1) h
          · next hup =>
              rw [if_neg hup] at h
              exact ih (Nat.add_le_add_right hle 1) h

theorem targetEscapes_of_escapesTree {link : LocalNode.WalkedSymlink}
    (h : escapesTree link = true) : targetEscapes link.2 = true := by
  rw [escapesTree, Bool.and_eq_true, leavesRoot, isNone_follow] at h
  exact escapesFrom_of_le _ (Nat.zero_le _) h.2

theorem countP_eq_countP_iff {α : Type} {p q : α → Bool} (h : ∀ a, q a = true → p a = true)
    (as : List α) : as.countP p = as.countP q ↔ ∀ a ∈ as, p a = true → q a = true := by
  induction as with
  | nil => simp
  | cons a as ih =>
      have hle : as.countP q ≤ as.countP p := List.countP_mono_left fun x _ => h x
      rw [List.forall_mem_cons, ← ih, List.countP_cons, List.countP_cons]
      cases hq : q a with
      | true =>
          rw [h a hq]
          simp
      | false =>
          cases hp : p a with
          | true =>
              simp only [if_true, Bool.false_eq_true, if_false, forall_true_left, false_and,
                iff_false]
              omega
          | false => simp

section Summary

variable [Sha256] [Prost] {σ : Type} {keys : Sources → List Digest} {store : BlobStore σ}
  {disk : Disk} {workers : HashWorkers} {root : PathBuf} {node : LocalNode}
  {options : UploadOptions} {s s' : σ} {summary : UploadSummary}

/-- What an upload counts of the symlinks: the absolute ones, and those whose target goes
above its start. -/
theorem symlink_warnings
    (h : uploadLocalDirectory keys store disk workers root node options s =
      (.ok summary, s')) :
    summary.warnings.escapingSymlinks =
        node.symlinks.countP (fun link => targetEscapes link.2) ∧
      summary.warnings.absoluteSymlinks =
        node.symlinks.countP fun link => isAbsolute link.2 := by
  obtain ⟨metadata, listing, entries, -, hwarnings⟩ := uploadLocalDirectory_warnings h
  rw [hwarnings]
  refine ⟨(Nat.zero_add _).trans ?_, (Nat.zero_add _).trans ?_⟩
  · exact sum_targetCounter node TreeWarnings.escapingCounter targetEscapes (fun _ => rfl)
      (fun _ => rfl) entries
  · refine sum_targetCounter node TreeWarnings.absoluteCounter isAbsolute (fun _ => rfl) ?_
      entries
    intro target
    change (if target.toList.head? = some '/' then 1 else 0) = _
    simp [isAbsolute]

/-- The symlink counters are exact exactly when every target that climbs above the directory
it is followed from is relative and, from the directory of its symlink, leaves the root. -/
theorem symlink_warnings_exact_iff
    (h : uploadLocalDirectory keys store disk workers root node options s =
      (.ok summary, s')) :
    (summary.warnings.escapingSymlinks = node.symlinks.countP escapesTree ∧
        summary.warnings.absoluteSymlinks =
          node.symlinks.countP fun link => isAbsolute link.2) ↔
      ∀ link ∈ node.symlinks, climbs link.2 = true →
        isAbsolute link.2 = false ∧ leavesRoot link = true := by
  obtain ⟨hescaping, habsolute⟩ := symlink_warnings h
  rw [hescaping, habsolute, and_iff_left rfl,
    countP_eq_countP_iff fun link => targetEscapes_of_escapesTree]
  simp [escapesTree, targetEscapes_eq_climbs]

end Summary

/-- The symlink of the sample climbs to the root and no further. -/
theorem symlink_warnings_exact_iff_sample : ∃ summary held,
    Sample.linkedUpload = (.ok summary, held) ∧
      ((summary.warnings.escapingSymlinks = Sample.linkedTree.symlinks.countP escapesTree ∧
          summary.warnings.absoluteSymlinks =
            Sample.linkedTree.symlinks.countP fun link => isAbsolute link.2) ↔
        ∀ link ∈ Sample.linkedTree.symlinks, climbs link.2 = true →
          isAbsolute link.2 = false ∧ leavesRoot link = true) := by
  obtain ⟨summary, held, hupload, -⟩ := linkedUpload_eq
  let : Sha256 := Sample.linkedSha256
  let : Prost := Sample.linkedProst
  exact ⟨summary, held, hupload, symlink_warnings_exact_iff hupload⟩

/-- The symlink `d/l` to `../x` stays inside the tree and is counted as escaping. -/
theorem escaping_symlinks_not_exact : ∃ summary held,
    Sample.linkedUpload = (.ok summary, held) ∧
      summary.warnings.escapingSymlinks ≠ Sample.linkedTree.symlinks.countP escapesTree := by
  obtain ⟨summary, held, hupload, hwarnings⟩ := linkedUpload_eq
  refine ⟨summary, held, hupload, ?_⟩
  rw [hwarnings]
  decide

end Upload

end RemoteFs
