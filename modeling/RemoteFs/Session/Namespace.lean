import RemoteFs.Session.Store

/-!
# The namespace a session store represents

`Node` is a remote node with its identity, its parent and whether its children
were created. `Node.row` is the row the store writes for it and `Node.inode` what
a read returns; `validateInodeRow_row` says that the reader accepts what the
writer writes, for every kind.

`Namespace` is a list of nodes with its shape: one root, every other node below a
loaded directory that is older than it, and no two nodes with one name in one
place. It changes in one way, `Namespace.load`, which gives an unloaded directory
its children.
-/

namespace RemoteFs

namespace Session

open RemoteFs.Tree (NodeKind ValidName)
open SortBy (sortBy)

structure Node where
  id : InodeId
  parent : Option InodeId
  remote : NewRemoteInode
  loaded : Bool

namespace Node

def loadedColumn (n : Node) : Option ℤ :=
  match n.remote.content with
  | .directory _ => some (if n.loaded then 1 else 0)
  | .file _ => none
  | .symlink _ => none

def row (n : Node) : InodeRow :=
  { newRow n.parent n.remote with
    id := n.id.sqlite
    directoryLoaded := n.loadedColumn }

def inode (n : Node) : StoreInode where
  id := n.id
  parent := n.parent
  name := n.remote.name
  kind := n.remote.content.kind
  mode := n.remote.mode
  mtime := n.remote.mtime
  tombstone := false
  fileRemoteDigest :=
    match n.remote.content with
    | .file digest => some digest
    | .directory _ => none
    | .symlink _ => none
  fileOverlayPath := none
  fileContentDirty :=
    match n.remote.content with
    | .file _ => some false
    | .directory _ => none
    | .symlink _ => none
  symlinkTarget :=
    match n.remote.content with
    | .file _ => none
    | .directory _ => none
    | .symlink target => some target
  directoryRemoteDigest :=
    match n.remote.content with
    | .file _ => none
    | .directory digest => some digest
    | .symlink _ => none
  directoryLoaded :=
    match n.remote.content with
    | .file _ => none
    | .directory _ => some n.loaded
    | .symlink _ => none

/-- The place of a node: the root, or a named node below a parent. -/
def Placed (n : Node) : Prop :=
  (n.id = InodeId.root ∧ n.parent = none ∧ n.remote.name = "" ∧
      n.remote.content.kind = .directory) ∨
    (n.id ≠ InodeId.root ∧ n.parent.isSome ∧ ValidName n.remote.name)

/-- What the validators require of a node. -/
structure Valid (n : Node) : Prop where
  mode_le : ∀ mode, n.remote.mode = some mode → ¬ mode > 0o7777
  placed : n.Placed

end Node

/-! ### Columns survive a write and a read -/

theorem transposed_map {α β : Type} {validate : α → Except SessionError β} {f : β → α}
    (h : ∀ b, validate (f b) = .ok b) (o : Option β) : transposed validate (o.map f) = .ok o := by
  cases o with
  | none => rfl
  | some b => simp only [Option.map_some, transposed, h, Except.map]

@[simp] theorem transposed_none {α β : Type} (validate : α → Except SessionError β) :
    transposed validate none = .ok none := rfl

theorem u32TryFrom_toNat (value : UInt32) : u32TryFrom (value.toNat : ℤ) = some value := by
  have hlt := value.toNat_lt
  rw [u32TryFrom, if_pos ⟨by omega, by omega⟩]
  simp

theorem validateStoredMode_toNat (inode : InodeId) (mode : UInt32) :
    validateStoredMode inode (mode.toNat : ℤ) = .ok mode := by
  rw [validateStoredMode, u32TryFrom_toNat]

theorem u32TryFrom_nanos (nanos : ℕ) (h : nanos < 1000000000) :
    u32TryFrom (nanos : ℤ) = some (UInt32.ofNat nanos) ∧
      (UInt32.ofNat nanos).toNat = nanos := by
  refine ⟨?_, ?_⟩
  · rw [u32TryFrom, if_pos ⟨by omega, by omega⟩]
    simp
  · rw [UInt32.toNat_ofNat']
    exact Nat.mod_eq_of_lt (by omega)

theorem validateInodeMtime_map (inode : InodeId) (mtime : Option NodeTime) :
    validateInodeMtime inode (mtime.map NodeTime.seconds)
      (mtime.map fun time => (time.nanos : ℤ)) = .ok mtime := by
  cases mtime with
  | none => rfl
  | some time =>
      obtain ⟨hnanos, htoNat⟩ := u32TryFrom_nanos time.nanos time.supported.2
      have hnew := time.new_eq_self
      rw [Option.map_some, Option.map_some, validateInodeMtime, hnanos, Option.bind_some,
        htoNat, hnew]

theorem validateStoredDigest_display (inode : InodeId) (field : String)
    (digest : Option Digest) :
    validateStoredDigest inode field (digest.map Digest.display) = .ok digest := by
  refine transposed_map ?_ digest
  intro d
  rw [Digest.fromStr_display]
  rfl

theorem parseKind_kindText (inode : InodeId) (kind : NodeKind) :
    parseKind inode (kindText kind) = .ok kind := by
  cases kind <;> rfl

theorem validateStoredBool_toInt (inode : InodeId) (field : String) (value : Bool) :
    validateStoredBool inode field (if value then 1 else 0) = .ok value := by
  cases value <;> rfl

theorem validateInodeName_eq_ok_iff (name : String) :
    validateInodeName name = .ok () ↔ ValidName name := by
  unfold validateInodeName ValidName
  by_cases hempty : name = ""
  · simp [hempty]
  · by_cases hdot : name = "."
    · simp [hdot]
    · by_cases hdots : name = ".."
      · simp [hdots]
      · by_cases hslash : '/' ∈ name.toList <;> simp [hempty, hdot, hdots, hslash]

/-! ### Rows -/

theorem validateInodeHierarchy_inode {n : Node} (h : n.Placed) :
    validateInodeHierarchy n.inode = .ok () := by
  obtain ⟨hid, hparent, hname, hkind⟩ | ⟨hid, hparent, hname⟩ := h
  · have hcontent : ∃ digest, n.remote.content = .directory digest := by
      cases hc : n.remote.content with
      | directory digest => exact ⟨digest, rfl⟩
      | file => simp [hc, RemoteContent.kind] at hkind
      | symlink => simp [hc, RemoteContent.kind] at hkind
    obtain ⟨digest, hcontent⟩ := hcontent
    simp [validateInodeHierarchy, Node.inode, hid, hparent, hname, hcontent,
      RemoteContent.kind]
  · obtain ⟨parent, hparent⟩ := Option.isSome_iff_exists.mp hparent
    have hvalid := (validateInodeName_eq_ok_iff n.remote.name).mpr hname
    simp [validateInodeHierarchy, Node.inode, hid, hparent, hvalid]

theorem validateInodeKind_inode (n : Node) : validateInodeKind n.inode = .ok () := by
  cases hcontent : n.remote.content with
  | file digest =>
      simp [validateInodeKind, Node.inode, hcontent, RemoteContent.kind, validateFileInode]
  | directory digest =>
      simp [validateInodeKind, Node.inode, hcontent, RemoteContent.kind,
        validateDirectoryInode]
  | symlink target =>
      simp [validateInodeKind, Node.inode, hcontent, RemoteContent.kind, validateSymlinkInode]

theorem validateInode_inode {n : Node} (h : n.Valid) : validateInode n.inode = .ok () := by
  have hmode : (n.inode.mode.any fun mode => mode > 0o7777) = false := by
    cases hmode : n.remote.mode with
    | none => simp [Node.inode, hmode]
    | some mode => simpa [Node.inode, hmode] using h.mode_le mode hmode
  rw [validateInode, hmode, validateInodeHierarchy_inode h.placed]
  exact validateInodeKind_inode n

theorem contentColumns_row (n : Node) :
    validateStoredDigest n.id "file remote digest" n.row.fileRemoteDigest =
        .ok n.inode.fileRemoteDigest ∧
      transposed (validateStoredBool n.id "file content dirty") n.row.fileContentDirty =
        .ok n.inode.fileContentDirty ∧
      validateStoredDigest n.id "directory remote digest" n.row.directoryRemoteDigest =
        .ok n.inode.directoryRemoteDigest ∧
      transposed (validateStoredBool n.id "directory loaded") n.row.directoryLoaded =
        .ok n.inode.directoryLoaded ∧
      n.row.symlinkTarget = n.inode.symlinkTarget := by
  cases hcontent : n.remote.content with
  | file digest =>
      have hdigest := validateStoredDigest_display n.id "file remote digest" (some digest)
      simp only [Node.row, newRow, Node.inode, Node.loadedColumn, hcontent]
      exact ⟨hdigest, rfl, rfl, rfl, trivial⟩
  | directory digest =>
      have hdigest := validateStoredDigest_display n.id "directory remote digest" (some digest)
      have hloaded := validateStoredBool_toInt n.id "directory loaded" n.loaded
      simp only [Node.row, newRow, Node.inode, Node.loadedColumn, hcontent]
      refine ⟨rfl, rfl, hdigest, ?_, trivial⟩
      rw [transposed, hloaded]
      rfl
  | symlink target =>
      simp only [Node.row, newRow, Node.inode, Node.loadedColumn, hcontent]
      exact ⟨rfl, rfl, rfl, rfl, trivial⟩

/-- The reader accepts the row of a valid node and returns its inode. -/
theorem validateInodeRow_row {n : Node} (h : n.Valid) :
    validateInodeRow n.row = .ok n.inode := by
  have hid : InodeId.fromSqlite n.row.id = .ok n.id := InodeId.fromSqlite_sqlite n.id
  have hparent : transposed InodeId.fromSqlite n.row.parentId = .ok n.parent :=
    transposed_map InodeId.fromSqlite_sqlite n.parent
  have hkind : parseKind n.id n.row.kind = .ok n.remote.content.kind :=
    parseKind_kindText n.id n.remote.content.kind
  have hmtime : validateInodeMtime n.id n.row.mtimeSeconds n.row.mtimeNanos =
      .ok n.remote.mtime := validateInodeMtime_map n.id n.remote.mtime
  have hmode : transposed (validateStoredMode n.id) n.row.mode = .ok n.remote.mode :=
    transposed_map (validateStoredMode_toNat n.id) n.remote.mode
  have htombstone : validateStoredBool n.id "tombstone" n.row.tombstone = .ok false := rfl
  obtain ⟨hfile, hdirty, hdirectory, hloaded, htarget⟩ := contentColumns_row n
  rw [validateInodeRow, hid, withContext_ok, Result.ok_bind, hparent, withContext_ok,
    Result.ok_bind, hkind, Result.ok_bind, hmode, Result.ok_bind, hmtime, withContext_ok,
    Result.ok_bind, htombstone, withContext_ok, Result.ok_bind, hfile, withContext_ok,
    Result.ok_bind, hdirty, withContext_ok, Result.ok_bind, hdirectory, withContext_ok,
    Result.ok_bind, hloaded, withContext_ok, Result.ok_bind, htarget]
  have hvalid := validateInode_inode h
  change (do withContext (validateInode n.inode) _; .ok n.inode) = _
  rw [hvalid]
  rfl

/-! ### The namespace -/

def InodeId.succ (inode : InodeId) : InodeId where
  value := inode.value + 1
  pos := by
    have := inode.pos
    omega

def rootNode (rootDigest : Digest) (loaded : Bool) : Node where
  id := InodeId.root
  parent := none
  remote := SessionStore.newRoot rootDigest
  loaded := loaded

def Node.IsLoaded (n : Node) : Prop :=
  n.remote.content.kind = .directory ∧ n.loaded = true

/-- The nodes of a session and the last identity allocated. -/
structure Namespace where
  rootDigest : Digest
  nodes : List Node
  last : InodeId
  root : ∃ loaded rest, nodes = rootNode rootDigest loaded :: rest
  ids : nodes.Pairwise fun m n => m.id.value < n.id.value
  ids_le : ∀ n ∈ nodes, n.id.value ≤ last.value
  valid : ∀ n ∈ nodes, n.Valid
  parents : ∀ n ∈ nodes, ∀ parent, n.parent = some parent →
    ∃ p ∈ nodes, p.id = parent ∧ p.IsLoaded ∧ p.id.value < n.id.value
  names : nodes.Pairwise fun m n => m.parent = n.parent → m.remote.name ≠ n.remote.name

theorem rootNode_valid (rootDigest : Digest) (loaded : Bool) :
    (rootNode rootDigest loaded).Valid where
  mode_le := by
    intro mode h
    cases h
  placed := .inl ⟨rfl, rfl, rfl, rfl⟩

/-- The namespace of a new session: an unloaded root. -/
def Namespace.start (rootDigest : Digest) : Namespace where
  rootDigest := rootDigest
  nodes := [rootNode rootDigest false]
  last := InodeId.root
  root := ⟨false, [], rfl⟩
  ids := List.pairwise_singleton _ _
  ids_le := by
    intro n hn
    rw [List.mem_singleton.mp hn]
    exact le_refl _
  valid := by
    intro n hn
    rw [List.mem_singleton.mp hn]
    exact rootNode_valid rootDigest false
  parents := by
    intro n hn parent hparent
    rw [List.mem_singleton.mp hn] at hparent
    cases hparent
  names := List.pairwise_singleton _ _

namespace Namespace

variable (ns : Namespace)

def find (inode : InodeId) : Option Node :=
  ns.nodes.find? fun n => n.id = inode

def child (parent : InodeId) (name : String) : Option Node :=
  ns.nodes.find? fun n => n.parent = some parent ∧ n.remote.name = name

def children (parent : InodeId) : List Node :=
  sortBy (fun n => nameKey n.remote.name) (ns.nodes.filter fun n => n.parent = some parent)

theorem ids_nodup : (ns.nodes.map Node.id).Nodup := by
  rw [List.nodup_iff_pairwise_ne, List.pairwise_map]
  refine ns.ids.imp ?_
  intro m n hlt heq
  rw [heq] at hlt
  exact lt_irrefl _ hlt

theorem eq_of_id_eq {m n : Node} (hm : m ∈ ns.nodes) (hn : n ∈ ns.nodes)
    (h : m.id = n.id) : m = n :=
  List.inj_on_of_nodup_map ns.ids_nodup hm hn h

theorem places_nodup : (ns.nodes.map fun n => (n.parent, n.remote.name)).Nodup := by
  rw [List.nodup_iff_pairwise_ne, List.pairwise_map]
  refine ns.names.imp ?_
  intro m n hne heq
  exact hne (Prod.mk.inj heq).1 (Prod.mk.inj heq).2

theorem eq_of_place_eq {m n : Node} (hm : m ∈ ns.nodes) (hn : n ∈ ns.nodes)
    (hparent : m.parent = n.parent) (hname : m.remote.name = n.remote.name) : m = n :=
  List.inj_on_of_nodup_map ns.places_nodup hm hn (Prod.ext hparent hname)

theorem find_eq_some_iff (inode : InodeId) (n : Node) :
    ns.find inode = some n ↔ n ∈ ns.nodes ∧ n.id = inode := by
  rw [find]
  constructor
  · intro h
    exact ⟨List.mem_of_find?_eq_some h, by simpa using List.find?_some h⟩
  · rintro ⟨hn, hid⟩
    cases hfound : ns.nodes.find? fun n => n.id = inode with
    | none =>
        have hne := List.find?_eq_none.mp hfound n hn
        simp [hid] at hne
    | some m =>
        have hm := List.mem_of_find?_eq_some hfound
        have hmid : m.id = inode := by simpa using List.find?_some hfound
        rw [ns.eq_of_id_eq hm hn (hmid.trans hid.symm)]

theorem of_child_eq_some {parent : InodeId} {name : String} {n : Node}
    (h : ns.child parent name = some n) :
    n ∈ ns.nodes ∧ n.parent = some parent ∧ n.remote.name = name := by
  refine ⟨List.mem_of_find?_eq_some h, ?_⟩
  simpa using List.find?_some h

theorem mem_children_iff (parent : InodeId) (n : Node) :
    n ∈ ns.children parent ↔ n ∈ ns.nodes ∧ n.parent = some parent := by
  rw [children, SortBy.mem_sortBy, List.mem_filter, decide_eq_true_eq]

theorem isLoaded_of_parent {n p : Node} (hn : n ∈ ns.nodes) (hp : p ∈ ns.nodes)
    (hparent : n.parent = some p.id) : p.IsLoaded := by
  obtain ⟨q, hq, hid, hloaded, -⟩ := ns.parents n hn p.id hparent
  rwa [← ns.eq_of_id_eq hq hp hid]

theorem children_eq_nil {p : Node} (hp : p ∈ ns.nodes) (hloaded : p.loaded = false) :
    ns.children p.id = [] := by
  rw [List.eq_nil_iff_forall_not_mem]
  intro n hn
  obtain ⟨hmem, hparent⟩ := (ns.mem_children_iff p.id n).mp hn
  have h := ns.isLoaded_of_parent hmem hp hparent
  rw [h.2] at hloaded
  cases hloaded

end Namespace

/-! ### Loading a directory -/

structure ValidChildren (children : List NewRemoteInode) : Prop where
  names_valid : ∀ child ∈ children, ValidName child.name
  names_nodup : (children.map NewRemoteInode.name).Nodup
  mode_le : ∀ child ∈ children, ∀ mode, child.mode = some mode → ¬ mode > 0o7777

theorem validateRemoteChildrenFrom_eq_ok_iff (children : List NewRemoteInode) :
    ∀ names : List String, validateRemoteChildrenFrom names children = .ok () ↔
      ValidChildren children ∧ ∀ child ∈ children, child.name ∉ names := by
  induction children with
  | nil =>
      intro names
      refine ⟨fun _ => ⟨⟨by simp, by simp, by simp⟩, by simp⟩, fun _ => rfl⟩
  | cons child children ih =>
      intro names
      rw [validateRemoteChildrenFrom, Result.check_bind_eq_ok_iff,
        validateInodeName_eq_ok_iff]
      constructor
      · rintro ⟨hname, h⟩
        split at h
        · cases h
        · next hfresh =>
            split at h
            · cases h
            · next hmode =>
                obtain ⟨hchildren, hnames⟩ := (ih _).mp h
                simp only [List.mem_cons, not_or] at hnames
                have hmode' : ∀ mode, child.mode = some mode → ¬ mode > 0o7777 := by
                  intro mode hsome
                  simpa [hsome] using hmode
                refine ⟨⟨?_, ?_, ?_⟩, ?_⟩
                · exact List.forall_mem_cons.mpr ⟨hname, hchildren.names_valid⟩
                · rw [List.map_cons, List.nodup_cons]
                  refine ⟨?_, hchildren.names_nodup⟩
                  intro hmem
                  obtain ⟨other, hother, heq⟩ := List.mem_map.mp hmem
                  exact (hnames other hother).1 heq
                · exact List.forall_mem_cons.mpr ⟨hmode', hchildren.mode_le⟩
                · exact List.forall_mem_cons.mpr
                    ⟨hfresh, fun other hother => (hnames other hother).2⟩
      · rintro ⟨hchildren, hnames⟩
        have hnodup := hchildren.names_nodup
        rw [List.map_cons, List.nodup_cons] at hnodup
        refine ⟨hchildren.names_valid child (List.mem_cons_self ..), ?_⟩
        have hmode : ¬ (child.mode.any fun mode => mode > 0o7777) = true := by
          cases hmode : child.mode with
          | none => simp
          | some mode =>
              simpa using hchildren.mode_le child (List.mem_cons_self ..) mode hmode
        rw [if_neg (hnames child (List.mem_cons_self ..)), if_neg hmode, ih]
        refine ⟨⟨?_, hnodup.2, ?_⟩, ?_⟩
        · exact (List.forall_mem_cons.mp hchildren.names_valid).2
        · exact (List.forall_mem_cons.mp hchildren.mode_le).2
        · intro other hother
          rw [List.mem_cons, not_or]
          refine ⟨fun heq => ?_, (List.forall_mem_cons.mp hnames).2 other hother⟩
          exact hnodup.1 (List.mem_map.mpr ⟨other, hother, heq⟩)

theorem validateRemoteChildren_eq_ok_iff (children : List NewRemoteInode) :
    validateRemoteChildren children = .ok () ↔ ValidChildren children := by
  rw [validateRemoteChildren, validateRemoteChildrenFrom_eq_ok_iff]
  simp

theorem validateRemoteChildrenFrom_error (children : List NewRemoteInode) :
    ∀ {names : List String} {e : SessionError},
      validateRemoteChildrenFrom names children = .error e →
        ∃ reason, e = internalError reason := by
  induction children with
  | nil =>
      intro names e h
      cases h
  | cons child children ih =>
      intro names e h
      rw [validateRemoteChildrenFrom, validateInodeName] at h
      split at h
      · cases h
        exact ⟨_, rfl⟩
      · rw [Result.ok_bind] at h
        split at h
        · cases h
          exact ⟨_, rfl⟩
        · split at h
          · cases h
            exact ⟨_, rfl⟩
          · exact ih h

theorem validateRemoteChildren_error {children : List NewRemoteInode} {e : SessionError}
    (h : validateRemoteChildren children = .error e) : ∃ reason, e = internalError reason :=
  validateRemoteChildrenFrom_error children h

/-- The nodes created for a child set, numbered from the last identity on. -/
def newNodes (parent : InodeId) : InodeId → List NewRemoteInode → List Node
  | _, [] => []
  | last, child :: children =>
      { id := last.succ, parent := some parent, remote := child, loaded := false } ::
        newNodes parent last.succ children

/-- The last identity after a child set was numbered. -/
def lastAfter : InodeId → List NewRemoteInode → InodeId
  | last, [] => last
  | last, _ :: children => lastAfter last.succ children

theorem le_lastAfter (children : List NewRemoteInode) :
    ∀ last : InodeId, last.value ≤ (lastAfter last children).value := by
  induction children with
  | nil => exact fun last => le_refl _
  | cons child children ih =>
      intro last
      have h := ih last.succ
      simp only [InodeId.succ] at h
      rw [lastAfter]
      simp only [InodeId.succ]
      omega

structure NewNode (parent last : InodeId) (children : List NewRemoteInode) (n : Node) :
    Prop where
  parent_eq : n.parent = some parent
  remote_mem : n.remote ∈ children
  unloaded : n.loaded = false
  lt_id : last.value < n.id.value
  id_le : n.id.value ≤ (lastAfter last children).value

theorem newNode_of_mem {parent : InodeId} {n : Node} (children : List NewRemoteInode) :
    ∀ last : InodeId, n ∈ newNodes parent last children → NewNode parent last children n := by
  induction children with
  | nil =>
      intro last hn
      cases hn
  | cons child children ih =>
      intro last hn
      rw [newNodes, List.mem_cons] at hn
      have hle := le_lastAfter children last.succ
      obtain hn | hn := hn
      · rw [hn]
        refine ⟨rfl, List.mem_cons_self .., rfl, ?_, hle⟩
        simp only [InodeId.succ]
        omega
      · have h := ih last.succ hn
        refine ⟨h.parent_eq, List.mem_cons_of_mem _ h.remote_mem, h.unloaded, ?_, h.id_le⟩
        have hlt := h.lt_id
        simp only [InodeId.succ] at hlt
        omega

theorem newNodes_ids (parent : InodeId) (children : List NewRemoteInode) :
    ∀ last : InodeId,
      (newNodes parent last children).Pairwise fun m n => m.id.value < n.id.value := by
  induction children with
  | nil => exact fun last => List.Pairwise.nil
  | cons child children ih =>
      intro last
      rw [newNodes, List.pairwise_cons]
      exact ⟨fun n hn => (newNode_of_mem children last.succ hn).lt_id, ih last.succ⟩

theorem map_remote_newNodes (parent : InodeId) (children : List NewRemoteInode) :
    ∀ last : InodeId, (newNodes parent last children).map Node.remote = children := by
  induction children with
  | nil => exact fun last => rfl
  | cons child children ih =>
      intro last
      rw [newNodes, List.map_cons, ih]

namespace Node

def markLoaded (parent : InodeId) (n : Node) : Node :=
  { n with loaded := n.loaded || n.id = parent }

@[simp] theorem markLoaded_id (parent : InodeId) (n : Node) :
    (n.markLoaded parent).id = n.id := rfl

@[simp] theorem markLoaded_parent (parent : InodeId) (n : Node) :
    (n.markLoaded parent).parent = n.parent := rfl

@[simp] theorem markLoaded_remote (parent : InodeId) (n : Node) :
    (n.markLoaded parent).remote = n.remote := rfl

theorem IsLoaded.markLoaded {n : Node} (h : n.IsLoaded) (parent : InodeId) :
    (n.markLoaded parent).IsLoaded := by
  refine ⟨h.1, ?_⟩
  rw [Node.markLoaded]
  simp [h.2]

end Node

namespace Namespace

variable (ns : Namespace) (parent : InodeId) (children : List NewRemoteInode)

/-- A child set that can be given to a directory. -/
structure Loadable : Prop where
  directory : ∃ p ∈ ns.nodes, p.id = parent ∧ p.remote.content.kind = .directory ∧
    p.loaded = false
  children_valid : ValidChildren children

def loadNodes : List Node :=
  ns.nodes.map (Node.markLoaded parent) ++ newNodes parent ns.last children

variable {ns parent children}

theorem mem_loadNodes_iff (n : Node) :
    n ∈ ns.loadNodes parent children ↔
      (∃ m ∈ ns.nodes, m.markLoaded parent = n) ∨ n ∈ newNodes parent ns.last children := by
  rw [loadNodes, List.mem_append, List.mem_map]

theorem loadNodes_root :
    ∃ loaded rest, ns.loadNodes parent children = rootNode ns.rootDigest loaded :: rest := by
  obtain ⟨loaded, rest, h⟩ := ns.root
  rw [loadNodes, h, List.map_cons, List.cons_append]
  exact ⟨_, _, rfl⟩

theorem loadNodes_ids :
    (ns.loadNodes parent children).Pairwise fun m n => m.id.value < n.id.value := by
  rw [loadNodes, List.pairwise_append, List.pairwise_map]
  refine ⟨ns.ids, newNodes_ids parent children ns.last, ?_⟩
  intro m hm n hn
  obtain ⟨m', hm', rfl⟩ := List.mem_map.mp hm
  exact lt_of_le_of_lt (ns.ids_le m' hm') (newNode_of_mem children ns.last hn).lt_id

theorem loadNodes_ids_le (n : Node) (hn : n ∈ ns.loadNodes parent children) :
    n.id.value ≤ (lastAfter ns.last children).value := by
  obtain ⟨m, hm, rfl⟩ | hn := (mem_loadNodes_iff n).mp hn
  · exact le_trans (ns.ids_le m hm) (le_lastAfter children ns.last)
  · exact (newNode_of_mem children ns.last hn).id_le

theorem loadNodes_valid (h : ns.Loadable parent children) (n : Node)
    (hn : n ∈ ns.loadNodes parent children) : n.Valid := by
  obtain ⟨m, hm, rfl⟩ | hn := (mem_loadNodes_iff n).mp hn
  · exact ⟨(ns.valid m hm).mode_le, (ns.valid m hm).placed⟩
  · have hnew := newNode_of_mem children ns.last hn
    refine ⟨h.children_valid.mode_le n.remote hnew.remote_mem, .inr ⟨?_, ?_, ?_⟩⟩
    · intro hroot
      have hlt := hnew.lt_id
      have hpos := ns.last.pos
      rw [hroot] at hlt
      simp only [InodeId.root] at hlt
      omega
    · rw [hnew.parent_eq]
      rfl
    · exact h.children_valid.names_valid n.remote hnew.remote_mem

theorem loadNodes_parents (h : ns.Loadable parent children) (n : Node)
    (hn : n ∈ ns.loadNodes parent children) (q : InodeId) (hq : n.parent = some q) :
    ∃ p ∈ ns.loadNodes parent children, p.id = q ∧ p.IsLoaded ∧ p.id.value < n.id.value := by
  obtain ⟨m, hm, rfl⟩ | hn := (mem_loadNodes_iff n).mp hn
  · obtain ⟨p, hp, hid, hloaded, hlt⟩ := ns.parents m hm q hq
    refine ⟨p.markLoaded parent, ?_, hid, hloaded.markLoaded parent, hlt⟩
    exact (mem_loadNodes_iff _).mpr (.inl ⟨p, hp, rfl⟩)
  · have hnew := newNode_of_mem children ns.last hn
    obtain ⟨p, hp, hid, hkind, -⟩ := h.directory
    rw [hnew.parent_eq, Option.some.injEq] at hq
    refine ⟨p.markLoaded parent, ?_, hid.trans hq, ⟨hkind, ?_⟩, ?_⟩
    · exact (mem_loadNodes_iff _).mpr (.inl ⟨p, hp, rfl⟩)
    · simp [Node.markLoaded, hid]
    · exact lt_of_le_of_lt (ns.ids_le p hp) hnew.lt_id

theorem Loadable.parent_ne (h : ns.Loadable parent children) {n : Node} (hn : n ∈ ns.nodes) :
    n.parent ≠ some parent := by
  obtain ⟨p, hp, rfl, -, hloaded⟩ := h.directory
  intro hparent
  rw [(ns.isLoaded_of_parent hn hp hparent).2] at hloaded
  cases hloaded

theorem loadNodes_names (h : ns.Loadable parent children) :
    (ns.loadNodes parent children).Pairwise fun m n =>
      m.parent = n.parent → m.remote.name ≠ n.remote.name := by
  rw [loadNodes, List.pairwise_append, List.pairwise_map]
  refine ⟨ns.names, ?_, ?_⟩
  · have hnodup := h.children_valid.names_nodup
    rw [← map_remote_newNodes parent children ns.last, List.map_map,
      List.nodup_iff_pairwise_ne, List.pairwise_map] at hnodup
    refine hnodup.imp ?_
    intro m n hne _
    exact hne
  · intro m hm n hn heq
    obtain ⟨m', hm', rfl⟩ := List.mem_map.mp hm
    rw [(newNode_of_mem children ns.last hn).parent_eq, Node.markLoaded_parent] at heq
    exact absurd heq (h.parent_ne hm')

def load (ns : Namespace) (parent : InodeId) (children : List NewRemoteInode)
    (h : ns.Loadable parent children) : Namespace where
  rootDigest := ns.rootDigest
  nodes := ns.loadNodes parent children
  last := lastAfter ns.last children
  root := loadNodes_root
  ids := loadNodes_ids
  ids_le := loadNodes_ids_le
  valid := loadNodes_valid h
  parents := loadNodes_parents h
  names := loadNodes_names h

end Namespace

end Session

end RemoteFs
