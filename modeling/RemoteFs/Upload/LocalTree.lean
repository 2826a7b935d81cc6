import RemoteFs.Cas.BlobStore
import RemoteFs.Library.SortBy
import RemoteFs.Tree.Metadata

/-!
# Local trees

A local directory as the system calls of the upload present it. A `LocalNode`
answers `symlink_metadata`, `read_dir` and `read_link`: each may fail, the
entries of a directory come in the order `read_dir` returns them, and a node
that is neither a file, a directory nor a symlink keeps its kind. The content of
a file is what it holds; reading it is a step of its own and comes later.

`LocalNode.walk` lists every node below a path with its relative path, and
`LocalNode.sorted` forgets the order of the entries.
-/

namespace RemoteFs

namespace Upload

open SortBy

/-- The fields of the file metadata the upload reads. -/
structure Metadata where
  mode : UInt32
  mtime : Int64
  mtimeNsec : Int64
  dev : UInt64
  ino : UInt64
  len : ℕ
  deriving DecidableEq, Repr

inductive SpecialKind where
  | blockDevice
  | charDevice
  | fifo
  | socket
  | unknown
  deriving DecidableEq, Repr

def nodeTypeName : SpecialKind → String
  | .blockDevice => "block device"
  | .charDevice => "character device"
  | .fifo => "fifo"
  | .socket => "socket"
  | .unknown => "unknown"

/-- A node of the local file system. `unreadable` is a node whose metadata
cannot be read, and `listing` is the failure of `read_dir`, if it fails. -/
inductive LocalNode where
  | file (metadata : Metadata) (content : Bytes)
  | directory (metadata : Metadata) (listing : Option IoError)
      (entries : List (OsStr × LocalNode))
  | symlink (metadata : Metadata) (target : Except IoError OsStr)
  | special (metadata : Metadata) (kind : SpecialKind)
  | unreadable (source : IoError)

namespace LocalNode

def IsLeaf (node : LocalNode) : Prop :=
  ∀ metadata listing entries, node ≠ .directory metadata listing entries

/-- Induction with a hypothesis for every entry of a directory. -/
@[elab_as_elim, induction_eliminator] theorem induction {P : LocalNode → Prop}
    (leaf : ∀ node, node.IsLeaf → P node)
    (directory : ∀ metadata listing entries,
      (∀ entry ∈ entries, P entry.2) → P (.directory metadata listing entries)) :
    ∀ node, P node := by
  intro node
  refine LocalNode.rec (motive_1 := P) (motive_2 := fun entries => ∀ entry ∈ entries, P entry.2)
    (motive_3 := fun entry => P entry.2) ?_ directory ?_ ?_ ?_ ?_ ?_ ?_ node
  · exact fun metadata content => leaf _ (by intro _ _ _ h; cases h)
  · exact fun metadata target => leaf _ (by intro _ _ _ h; cases h)
  · exact fun metadata kind => leaf _ (by intro _ _ _ h; cases h)
  · exact fun source => leaf _ (by intro _ _ _ h; cases h)
  · intro entry hentry
    cases hentry
  · intro head tail hhead htail entry hentry
    rcases List.mem_cons.mp hentry with rfl | hentry
    · exact hhead
    · exact htail entry hentry
  · intro name node hnode
    exact hnode

mutual

def walk : PathBuf → LocalNode → List (PathBuf × LocalNode)
  | path, .file metadata content => [(path, .file metadata content)]
  | path, .directory metadata listing entries =>
      (path, .directory metadata listing entries) :: walkEntries path entries
  | path, .symlink metadata target => [(path, .symlink metadata target)]
  | path, .special metadata kind => [(path, .special metadata kind)]
  | path, .unreadable source => [(path, .unreadable source)]

def walkEntries : PathBuf → List (OsStr × LocalNode) → List (PathBuf × LocalNode)
  | _, [] => []
  | path, (name, node) :: rest => walk (path.join name) node ++ walkEntries path rest

end

theorem walkEntries_eq (path : PathBuf) (entries : List (OsStr × LocalNode)) :
    walkEntries path entries = entries.flatMap fun entry => walk (path.join entry.1) entry.2 := by
  induction entries with
  | nil => simp [walkEntries]
  | cons entry rest ih => simp [walkEntries, ih]

theorem walk_leaf (path : PathBuf) (node : LocalNode) (h : node.IsLeaf) :
    walk path node = [(path, node)] := by
  unfold walk
  split
  · rfl
  · exact absurd rfl (h _ _ _)
  · rfl
  · rfl
  · rfl

theorem self_mem_walk (path : PathBuf) (node : LocalNode) : (path, node) ∈ walk path node := by
  unfold walk
  split <;> exact List.mem_cons_self

mutual

/-- The tree with the entries of every directory in bytewise order. -/
def sorted : LocalNode → LocalNode
  | .file metadata content => .file metadata content
  | .directory metadata listing entries =>
      .directory metadata listing
        (sortBy (fun entry => byteKey entry.1.asBytes) (sortedEntries entries))
  | .symlink metadata target => .symlink metadata target
  | .special metadata kind => .special metadata kind
  | .unreadable source => .unreadable source

def sortedEntries : List (OsStr × LocalNode) → List (OsStr × LocalNode)
  | [] => []
  | (name, node) :: rest => (name, sorted node) :: sortedEntries rest

end

theorem sorted_leaf (node : LocalNode) (h : node.IsLeaf) : node.sorted = node := by
  unfold sorted
  split
  · rfl
  · exact absurd rfl (h _ _ _)
  · rfl
  · rfl
  · rfl

theorem sortedEntries_eq (entries : List (OsStr × LocalNode)) :
    sortedEntries entries = entries.map fun entry => (entry.1, sorted entry.2) := by
  induction entries with
  | nil => simp [sortedEntries]
  | cons entry rest ih => simp [sortedEntries, ih]

end LocalNode

end Upload

end RemoteFs
