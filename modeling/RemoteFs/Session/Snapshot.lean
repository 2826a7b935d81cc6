import RemoteFs.Session.Facade
import RemoteFs.Session.StoreRuns

/-!
# The snapshot a session mounts

The content of the remote store is a function from digests to blobs. The
snapshot below a root digest is found by walking from it: `snapshotChildren`
decodes the directory named by a digest and `snapshotNode` follows a path.

`Namespace.Refines` says that the nodes below each loaded directory are the
children the snapshot has there. It is a condition on one directory at a time,
and it makes every stored node the snapshot's node at its path.
-/

namespace RemoteFs

namespace Session

open RemoteFs.Tree (NodeKind ValidName decodeDirectory)
open SortBy (sortBy)

structure View where
  name : String
  kind : NodeKind
  size : ℕ
  mode : UInt32
  mtime : NodeTime
  symlinkTarget : Option String
  deriving DecidableEq

def Inode.view (inode : Inode) : View where
  name := inode.name
  kind := inode.kind
  size := inode.size
  mode := inode.mode
  mtime := inode.mtime
  symlinkTarget := inode.symlinkTarget

/-- The inode projected from a remote node stored under an identity. -/
def NewRemoteInode.view (node : NewRemoteInode) : View :=
  (projectInode (Node.inode
    { id := .root, parent := none, remote := node, loaded := false })).view

section Snapshot

variable [Sha256] [Prost] (content : Digest → Option Bytes)

/-- The children of the directory named by a digest. -/
def snapshotChildren (digest : Digest) : Option (List NewRemoteInode) :=
  (content digest).bind fun bytes =>
    match decodeDirectory digest bytes with
    | .error _ => none
    | .ok directory => (decodedDirectoryChildren directory).toOption

def snapshotChild (node : NewRemoteInode) (name : String) : Option NewRemoteInode :=
  match node.content with
  | .directory digest =>
      (snapshotChildren content digest).bind fun children =>
        children.find? fun child => child.name = name
  | .file _ => none
  | .symlink _ => none

def snapshotNode (node : NewRemoteInode) : List String → Option NewRemoteInode
  | [] => some node
  | name :: path => (snapshotChild content node name).bind fun child => snapshotNode child path

theorem snapshotNode_append (path : List String) (name : String) :
    ∀ node : NewRemoteInode, snapshotNode content node (path ++ [name]) =
      (snapshotNode content node path).bind fun parent => snapshotChild content parent name := by
  induction path with
  | nil =>
      intro node
      simp only [List.nil_append, snapshotNode, Option.bind_some]
      cases snapshotChild content node name <;> rfl
  | cons first path ih =>
      intro node
      rw [List.cons_append, snapshotNode, snapshotNode, Option.bind_assoc]
      congr 1
      funext child
      exact ih child

end Snapshot

/-! ### Paths of stored inodes -/

inductive Database.PathTo (db : Database) : ℤ → List String → Prop
  | root : db.PathTo 1 []
  | child (row : InodeRow) (parent : ℤ) (path : List String) (hrow : row ∈ db.inodes)
      (hparent : row.parentId = some parent) (hpath : db.PathTo parent path) :
      db.PathTo row.id (path ++ [row.name])

section Paths

variable {db : Database} {ns : Namespace}

theorem exists_pathTo (h : db.HoldsNodes ns.nodes) (row : InodeRow) (hrow : row ∈ db.inodes) :
    ∃ path, db.PathTo row.id path := by
  have hrooted := rooted_row h row.id.toNat row hrow (le_refl _)
  clear hrow
  generalize row.id = id at hrooted
  induction hrooted with
  | refl => exact ⟨[], .root⟩
  | tail _ hstep ih =>
      obtain ⟨path, hpath⟩ := ih
      obtain ⟨child, hchild, rfl, hparent⟩ := hstep
      exact ⟨_, .child child _ path hchild hparent hpath⟩

theorem row_eq_of_id_eq (h : db.HoldsNodes ns.nodes) {a b : InodeRow} (ha : a ∈ db.inodes)
    (hb : b ∈ db.inodes) (hid : a.id = b.id) : a = b := by
  obtain ⟨m, hm, rfl⟩ := exists_node_of_row h ha
  obtain ⟨n, hn, rfl⟩ := exists_node_of_row h hb
  rw [ns.eq_of_id_eq hm hn (InodeId.sqlite_inj.mp hid)]

theorem pathTo_unique (h : db.HoldsNodes ns.nodes) {i : ℤ} {path : List String}
    (hpath : db.PathTo i path) : ∀ {path' : List String}, db.PathTo i path' →
      path = path' := by
  induction hpath with
  | root =>
      intro path' hpath'
      generalize hone : (1 : ℤ) = one at hpath'
      cases hpath' with
      | root => rfl
      | child row parent path hrow hparent _ =>
          have hnone := (only_root_row h row hrow).mpr hone.symm
          rw [hnone] at hparent
          cases hparent
  | child row parent path hrow hparent _ ih =>
      intro path' hpath'
      generalize hid : row.id = id at hpath'
      cases hpath' with
      | root =>
          have hnone := (only_root_row h row hrow).mpr hid
          rw [hnone] at hparent
          cases hparent
      | child row' parent' path' hrow' hparent' hpath' =>
          obtain rfl := row_eq_of_id_eq h hrow hrow' hid
          rw [hparent, Option.some.injEq] at hparent'
          rw [ih (hparent' ▸ hpath')]

theorem pathTo_injective (h : db.HoldsNodes ns.nodes) {i : ℤ} {path : List String}
    (hpath : db.PathTo i path) : ∀ {j : ℤ}, db.PathTo j path → i = j := by
  induction hpath with
  | root =>
      intro j hj
      generalize hnil : ([] : List String) = empty at hj
      cases hj with
      | root => rfl
      | child => simp at hnil
  | child row parent path hrow hparent _ ih =>
      intro j hj
      generalize happend : path ++ [row.name] = appended at hj
      cases hj with
      | root => simp at happend
      | child row' parent' path' hrow' hparent' hpath' =>
          obtain ⟨rfl, hname⟩ := List.append_inj' happend rfl
          have hsame := ih hpath'
          rw [← hsame] at hparent'
          obtain ⟨m, hm, rfl⟩ := exists_node_of_row h hrow
          obtain ⟨n, hn, rfl⟩ := exists_node_of_row h hrow'
          have hcolumn : m.parent = n.parent :=
            Option.map_injective (fun a b => InodeId.sqlite_inj.mp)
              (hparent.trans hparent'.symm)
          rw [ns.eq_of_place_eq hm hn hcolumn (List.cons.inj hname).1]

end Paths

/-! ### Refinement -/

namespace Namespace

/-- The nodes directly below an inode, in the order they were created. -/
def below (ns : Namespace) (parent : InodeId) : List Node :=
  ns.nodes.filter fun n => n.parent = some parent

/-- Everything in one namespace is in another, up to loading. -/
def Grows (ns ns' : Namespace) : Prop :=
  ns'.rootDigest = ns.rootDigest ∧ ∀ n ∈ ns.nodes, ∃ m ∈ ns'.nodes,
    m.id = n.id ∧ m.parent = n.parent ∧ m.remote = n.remote

theorem Grows.refl (ns : Namespace) : ns.Grows ns :=
  ⟨rfl, fun n hn => ⟨n, hn, rfl, rfl, rfl⟩⟩

theorem Grows.remote_eq {ns ns' : Namespace} (hgrows : ns.Grows ns') {n m : Node}
    (hn : n ∈ ns.nodes) (hm : m ∈ ns'.nodes) (hid : m.id = n.id) : m.remote = n.remote := by
  obtain ⟨m', hm', hid', -, hremote⟩ := hgrows.2 n hn
  rwa [← ns'.eq_of_id_eq hm' hm (hid'.trans hid.symm)]

theorem load_grows {ns : Namespace} {parent : InodeId} {children : List NewRemoteInode}
    (h : ns.Loadable parent children) : ns.Grows (ns.load parent children h) := by
  refine ⟨rfl, fun n hn => ⟨n.markLoaded parent, ?_, rfl, rfl, rfl⟩⟩
  exact (mem_loadNodes_iff _).mpr (.inl ⟨n, hn, rfl⟩)

theorem Grows.pathTo {ns ns' : Namespace} {db db' : Database} (h : db.HoldsNodes ns.nodes)
    (h' : db'.HoldsNodes ns'.nodes) (hgrows : ns.Grows ns') {i : ℤ} {path : List String}
    (hpath : db.PathTo i path) : db'.PathTo i path := by
  induction hpath with
  | root => exact .root
  | child row parent path hrow hparent _ ih =>
      obtain ⟨n, hn, rfl⟩ := exists_node_of_row h hrow
      obtain ⟨m, hm, hid, hpar, hremote⟩ := hgrows.2 n hn
      have hrowId : m.row.id = n.row.id := congrArg InodeId.sqlite hid
      have hrowName : m.row.name = n.row.name := congrArg NewRemoteInode.name hremote
      have hrowParent : m.row.parentId = some parent :=
        (congrArg (Option.map InodeId.sqlite) hpar).trans hparent
      rw [← hrowId, ← hrowName]
      exact .child m.row parent path (row_mem h' hm) hrowParent ih

theorem below_load {ns : Namespace} {parent : InodeId} {children : List NewRemoteInode}
    (h : ns.Loadable parent children) :
    (ns.load parent children h).below parent = newNodes parent ns.last children := by
  have hold : (ns.nodes.map (Node.markLoaded parent)).filter
      (fun n => n.parent = some parent) = [] := by
    rw [List.filter_eq_nil_iff]
    intro n hn
    obtain ⟨m, hm, rfl⟩ := List.mem_map.mp hn
    exact fun heq => h.parent_ne hm (of_decide_eq_true heq)
  have hnew : (newNodes parent ns.last children).filter (fun n => n.parent = some parent) =
      newNodes parent ns.last children := by
    rw [List.filter_eq_self]
    intro n hn
    simpa using (newNode_of_mem children ns.last hn).parent_eq
  change (ns.loadNodes parent children).filter _ = _
  rw [loadNodes, List.filter_append, hold, hnew, List.nil_append]

theorem below_load_of_ne {ns : Namespace} {parent q : InodeId}
    {children : List NewRemoteInode} (h : ns.Loadable parent children) (hne : q ≠ parent) :
    ((ns.load parent children h).below q).map Node.remote = (ns.below q).map Node.remote := by
  have hnew : (newNodes parent ns.last children).filter (fun n => n.parent = some q) = [] := by
    rw [List.filter_eq_nil_iff]
    intro n hn
    rw [(newNode_of_mem children ns.last hn).parent_eq]
    simpa using hne.symm
  change ((ns.loadNodes parent children).filter _).map _ = _
  rw [loadNodes, List.filter_append, hnew, List.append_nil, List.filter_map, List.map_map]
  rfl

section Refines

variable [Sha256] [Prost] (content : Digest → Option Bytes)

/-- Below each loaded directory are the children of the snapshot. -/
def Refines (ns : Namespace) : Prop :=
  ∀ p ∈ ns.nodes, ∀ digest, p.remote.content = .directory digest → p.loaded = true →
    ∃ children, snapshotChildren content digest = some children ∧ ValidChildren children ∧
      (ns.below p.id).map Node.remote = children

theorem start_refines (rootDigest : Digest) : (Namespace.start rootDigest).Refines content := by
  intro p hp digest _ hloaded
  rw [List.mem_singleton.mp hp] at hloaded
  cases hloaded

variable {content}

/-- Loading a directory with the children of the snapshot keeps the refinement. -/
theorem load_refines {ns : Namespace} {parent : InodeId} {children : List NewRemoteInode}
    {digest : Digest} {p : Node} (href : ns.Refines content)
    (h : ns.Loadable parent children) (hp : p ∈ ns.nodes) (hid : p.id = parent)
    (hdigest : p.remote.content = .directory digest)
    (hsnapshot : snapshotChildren content digest = some children) :
    (ns.load parent children h).Refines content := by
  intro q hq digest' hcontent hloaded
  obtain ⟨m, hm, rfl⟩ | hnew := (mem_loadNodes_iff q).mp hq
  · by_cases hparent : m.id = parent
    · obtain rfl := ns.eq_of_id_eq hm hp (hparent.trans hid.symm)
      have hsame : digest' = digest := by
        rw [Node.markLoaded_remote, hdigest] at hcontent
        exact (RemoteContent.directory.inj hcontent).symm
      refine ⟨children, hsame ▸ hsnapshot, h.children_valid, ?_⟩
      rw [Node.markLoaded_id, hparent, below_load h, map_remote_newNodes]
    · have hold : m.loaded = true := by
        simpa [Node.markLoaded, hparent] using hloaded
      obtain ⟨children', hchildren', hvalid, hbelow⟩ := href m hm digest' hcontent hold
      refine ⟨children', hchildren', hvalid, ?_⟩
      rw [Node.markLoaded_id, below_load_of_ne h hparent, hbelow]
  · rw [(newNode_of_mem children ns.last hnew).unloaded] at hloaded
    cases hloaded

omit [Sha256] [Prost] in
theorem find_name_eq_some {children : List NewRemoteInode} {child : NewRemoteInode}
    (hvalid : ValidChildren children) (hmem : child ∈ children) :
    (children.find? fun other => other.name = child.name) = some child := by
  cases hfound : children.find? fun other => other.name = child.name with
  | none =>
      have hne := List.find?_eq_none.mp hfound child hmem
      simp at hne
  | some other =>
      have hname : other.name = child.name := by simpa using List.find?_some hfound
      rw [List.inj_on_of_nodup_map hvalid.names_nodup (List.mem_of_find?_eq_some hfound) hmem
        hname]

theorem Refines.snapshotChild_eq {ns : Namespace} (href : ns.Refines content) {p n : Node}
    (hp : p ∈ ns.nodes) (hn : n ∈ ns.nodes) (hparent : n.parent = some p.id) :
    snapshotChild content p.remote n.remote.name = some n.remote := by
  have hloaded := ns.isLoaded_of_parent hn hp hparent
  cases hcontent : p.remote.content with
  | directory digest =>
      obtain ⟨children, hchildren, hvalid, hbelow⟩ := href p hp digest hcontent hloaded.2
      have hmem : n.remote ∈ children := by
        rw [← hbelow]
        refine List.mem_map_of_mem ?_
        rw [below, List.mem_filter]
        exact ⟨hn, by simpa using hparent⟩
      simp only [snapshotChild, hcontent, hchildren, Option.bind_some]
      exact find_name_eq_some hvalid hmem
  | file digest =>
      rw [Node.IsLoaded, hcontent] at hloaded
      cases hloaded.1
  | symlink target =>
      rw [Node.IsLoaded, hcontent] at hloaded
      cases hloaded.1

/-- A stored row is the node of the snapshot at its path. -/
theorem Refines.snapshotNode_eq {ns : Namespace} {db : Database} (h : db.HoldsNodes ns.nodes)
    (href : ns.Refines content) {i : ℤ} {path : List String} (hpath : db.PathTo i path) :
    ∃ n ∈ ns.nodes, n.id.sqlite = i ∧
      snapshotNode content (SessionStore.newRoot ns.rootDigest) path = some n.remote := by
  induction hpath with
  | root =>
      obtain ⟨loaded, rest, hnodes⟩ := ns.root
      refine ⟨rootNode ns.rootDigest loaded, ?_, rfl, rfl⟩
      rw [hnodes]
      exact List.mem_cons_self ..
  | child row parent path hrow hparent _ ih =>
      obtain ⟨p, hp, rfl, hnode⟩ := ih
      obtain ⟨n, hn, rfl⟩ := exists_node_of_row h hrow
      refine ⟨n, hn, rfl, ?_⟩
      rw [snapshotNode_append, hnode, Option.bind_some]
      exact href.snapshotChild_eq hp hn ((row_parentId_eq_iff n p.id).mp hparent)

end Refines

end Namespace

end Session

end RemoteFs
