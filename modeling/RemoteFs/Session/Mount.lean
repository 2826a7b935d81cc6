import RemoteFs.Session.Refinement
import RemoteFs.Tree.RoundTrip

/-!
# Runs of a mounted session

A run is a list of operations, each with its own surroundings: any inode, any
name, any failures of SQLite, and any cache reads that are honest. `Mounted` is
what every state of a run has: a namespace that the store holds and that refines
the snapshot below the root digest.

`session_refinesSnapshot` reads off what this means for a client. Inode numbers
follow the order in which directories are loaded, so two runs are compared at the
paths of their inodes.
-/

namespace RemoteFs

namespace Session

open RemoteFs.Tree (NodeKind ValidName StrictlySorted)
open SortBy (sortBy sortBy_perm)

/-! ### Operations and runs -/

/-- An operation of the facade, with what surrounds the call. -/
inductive Operation where
  | getInode (env : Surroundings) (inode : InodeId)
  | lookupChild (env : Surroundings) (parent : InodeId) (name : String)
  | listDirectory (env : Surroundings) (inode : InodeId)
  | readRange (env : Surroundings) (inode : InodeId) (offset size : ℕ)

def Operation.env : Operation → Surroundings
  | .getInode env _ => env
  | .lookupChild env _ _ => env
  | .listDirectory env _ => env
  | .readRange env _ _ _ => env

def opened (rootDigest : Digest) (store : SessionStore) : Session where
  rootDigest := rootDigest
  store := store
  counters :=
    { directoryDownloads := 0, directoryCacheHits := 0, fileDownloads := 0, fileCacheHits := 0 }

section Runs

variable [Uuid] [Sha256] [Prost]

def after (s : Session) : Operation → Session
  | .getInode _ _ => s
  | .lookupChild env parent name => (lookupChild env s parent name).2
  | .listDirectory env inode => (listDirectory env s inode).2
  | .readRange env inode offset size => (readRange env s inode offset size).2

theorem lookupChild_snd (env : Surroundings) (s : Session) (parent : InodeId)
    (name : String) :
    (lookupChild env s parent name).2 = (ensureDirectoryLoaded env s parent).2 := by
  rw [lookupChild]
  split
  · next heq => rw [heq]
  · next heq => rw [heq]

theorem listDirectory_snd (env : Surroundings) (s : Session) (inode : InodeId) :
    (listDirectory env s inode).2 = (ensureDirectoryLoaded env s inode).2 := by
  rw [listDirectory]
  split
  · next heq => rw [heq]
  · next heq => rw [heq]

omit [Sha256] [Prost] in
theorem readRange_store (env : Surroundings) (s : Session) (inode : InodeId)
    (offset size : ℕ) : (readRange env s inode offset size).2.store = s.store := by
  rw [readRange]
  split
  · rfl
  · rw [readStored]
    repeat' split
    all_goals rfl

/-! ### The invariant of a run -/

/-- The store holds a namespace that refines the snapshot. -/
structure Mounted (content : Digest → Option Bytes) (rootDigest : Digest) (s : Session)
    (ns : Namespace) : Prop where
  root : ns.rootDigest = rootDigest
  holds : s.store.database.Holds ns
  active : s.store.database.Active
  refines : ns.Refines content

variable {content : Digest → Option Bytes} {rootDigest : Digest} {s : Session}
  {ns : Namespace} {env : Surroundings}

theorem Mounted.ensureDirectoryLoaded (h : Mounted content rootDigest s ns)
    (honest : Honest content env) (inode : InodeId) :
    ∃ ns', Mounted content rootDigest (ensureDirectoryLoaded env s inode).2 ns' ∧
      ns.Grows ns' := by
  obtain ⟨s', ns', hload, -, hholds, hactive, href, hgrows, -⟩ | ⟨e, herror, -⟩ :=
    ensureDirectoryLoaded_cases h.holds h.active honest h.refines inode
  · rw [hload]
    exact ⟨ns', ⟨hgrows.1.trans h.root, hholds, hactive, href⟩, hgrows⟩
  · rw [herror]
    exact ⟨ns, h, .refl ns⟩

/-- What one operation preserves. -/
theorem Mounted.after (h : Mounted content rootDigest s ns) (op : Operation)
    (honest : Honest content op.env) :
    ∃ ns', Mounted content rootDigest (s.after op) ns' ∧ ns.Grows ns' := by
  cases op with
  | getInode env inode => exact ⟨ns, h, .refl ns⟩
  | lookupChild env parent name =>
      rw [Session.after, lookupChild_snd]
      exact h.ensureDirectoryLoaded honest parent
  | listDirectory env inode =>
      rw [Session.after, listDirectory_snd]
      exact h.ensureDirectoryLoaded honest inode
  | readRange env inode offset size =>
      have hstore : (s.after (.readRange env inode offset size)).store = s.store :=
        readRange_store env s inode offset size
      refine ⟨ns, ⟨h.root, ?_, ?_, h.refines⟩, .refl ns⟩
      · exact hstore ▸ h.holds
      · exact hstore ▸ h.active

/-- What a run preserves, from the creation of the store on. -/
theorem mounted_of_run {sqlite : Sqlite} {databasePath : PathBuf} {sessionId : String}
    {daemonPid : UInt32} {mountpoint : PathBuf} {clock : ℤ} {store : SessionStore}
    (hcreate : SessionStore.create sqlite databasePath sessionId daemonPid rootDigest
      mountpoint clock = .ok store)
    {operations : List Operation} (honest : ∀ op ∈ operations, Honest content op.env)
    (hrun : Transition.run (fun s op => some (Session.after s op)) (opened rootDigest store)
      operations = some s) :
    ∃ ns, Mounted content rootDigest s ns := by
  obtain ⟨hholds, hactive⟩ := create_holds hcreate
  have hopened : ∃ ns, Mounted content rootDigest (opened rootDigest store) ns :=
    ⟨_, rfl, hholds, hactive, Namespace.start_refines content rootDigest⟩
  have hstep : ∀ (s : Session) (op : Operation) (s' : Session), Honest content op.env →
      (∃ ns, Mounted content rootDigest s ns) → some (s.after op) = some s' →
      ∃ ns, Mounted content rootDigest s' ns := by
    intro s op s' honest hmounted hs'
    obtain ⟨ns, h⟩ := hmounted
    obtain ⟨ns', h', -⟩ := h.after op honest
    cases hs'
    exact ⟨ns', h'⟩
  exact Transition.run_invariant_of_mem hstep operations (opened rootDigest store) s honest
    hopened hrun

def Reached (content : Digest → Option Bytes) (rootDigest : Digest) (s : Session) : Prop :=
  ∃ sqlite databasePath sessionId daemonPid mountpoint clock store,
    SessionStore.create sqlite databasePath sessionId daemonPid rootDigest mountpoint clock =
      .ok store ∧
    ∃ operations : List Operation, (∀ op ∈ operations, Honest content op.env) ∧
      Transition.run (fun s op => some (Session.after s op)) (opened rootDigest store)
        operations = some s

theorem Reached.mounted (h : Reached content rootDigest s) :
    ∃ ns, Mounted content rootDigest s ns := by
  obtain ⟨_, _, _, _, _, _, _, hcreate, operations, honest, hrun⟩ := h
  exact mounted_of_run hcreate honest hrun

/-! ### Successful operations -/

omit [Uuid] [Sha256] [Prost] in
theorem projectInode_eq {m n : Node} (hid : m.id = n.id) (hparent : m.parent = n.parent)
    (hremote : m.remote = n.remote) : projectInode m.inode = projectInode n.inode := by
  simp only [projectInode, Node.inode, hid, hparent, hremote]

theorem Mounted.listDirectory_eq_ok (h : Mounted content rootDigest s ns)
    (honest : Honest content env) {inode : InodeId} {entries : List Inode} {s' : Session}
    (hlist : listDirectory env s inode = (.ok entries, s')) :
    ∃ ns' n, Mounted content rootDigest s' ns' ∧ ns.Grows ns' ∧ n ∈ ns'.nodes ∧
      n.id = inode ∧ n.IsLoaded ∧
      entries = (ns'.children inode).map fun c => projectInode c.inode := by
  rw [listDirectory] at hlist
  obtain ⟨t, ns', hload, -, hholds, hactive, href, hgrows, n, hn, hid, hloaded⟩ |
    ⟨e, herror, -⟩ := ensureDirectoryLoaded_cases h.holds h.active honest h.refines inode
  · rw [hload] at hlist
    obtain ⟨hread, rfl⟩ := Prod.mk.inj hlist
    rw [readChildren] at hread
    obtain hchildren | ⟨e, herror, -⟩ :=
      getDirectoryChildren_of_active hholds hactive env.readSqlite inode
    · rw [hchildren, Result.ok_bind, visible_children] at hread
      cases hread
      rw [List.map_map]
      exact ⟨ns', n, ⟨hgrows.1.trans h.root, hholds, hactive, href⟩, hgrows, hn, hid, hloaded,
        rfl⟩
    · rw [herror] at hread
      cases hread
  · rw [herror] at hlist
    cases hlist

omit [Sha256] [Prost] in
theorem readChild_of_active (h : s.store.database.Holds ns)
    (hactive : s.store.database.Active) {parent : InodeId} {name : String} {entry : Inode}
    (hread : readChild env s parent name = .ok entry) :
    ∃ c, ns.child parent name = some c ∧ entry = projectInode c.inode := by
  rw [readChild] at hread
  by_cases hname : ValidName name
  · obtain hchild | ⟨e, herror, -⟩ :=
      child_of_active h hactive env.readSqlite parent name hname
    · rw [hchild, Result.ok_bind] at hread
      cases hfound : ns.child parent name with
      | none =>
          rw [hfound] at hread
          cases hread
      | some c =>
          rw [hfound] at hread
          cases hread
          exact ⟨c, rfl, rfl⟩
    · rw [herror] at hread
      cases hread
  · obtain ⟨e, herror, -⟩ := child_of_invalid s.store env.readSqlite parent hname
    rw [herror] at hread
    cases hread

theorem Mounted.lookupChild_eq_ok (h : Mounted content rootDigest s ns)
    (honest : Honest content env) {parent : InodeId} {name : String} {entry : Inode}
    {s' : Session} (hlookup : lookupChild env s parent name = (.ok entry, s')) :
    ∃ ns' n c, Mounted content rootDigest s' ns' ∧ ns.Grows ns' ∧ n ∈ ns'.nodes ∧
      n.id = parent ∧ n.IsLoaded ∧ ns'.child parent name = some c ∧
      entry = projectInode c.inode := by
  rw [lookupChild] at hlookup
  obtain ⟨t, ns', hload, -, hholds, hactive, href, hgrows, n, hn, hid, hloaded⟩ |
    ⟨e, herror, -⟩ := ensureDirectoryLoaded_cases h.holds h.active honest h.refines parent
  · rw [hload] at hlookup
    obtain ⟨hread, rfl⟩ := Prod.mk.inj hlookup
    obtain ⟨c, hchild, hentry⟩ := readChild_of_active hholds hactive hread
    exact ⟨ns', n, c, ⟨hgrows.1.trans h.root, hholds, hactive, href⟩, hgrows, hn, hid, hloaded,
      hchild, hentry⟩
  · rw [herror] at hlookup
    cases hlookup

end Runs

/-! ### What a client sees -/

section Client

variable [Uuid] [Sha256] [Prost] (content : Digest → Option Bytes) (rootDigest : Digest)

/-- The node of the snapshot at a path from the root. -/
def nodeAt (path : List String) : Option NewRemoteInode :=
  snapshotNode content (SessionStore.newRoot rootDigest) path

/-- The listing of an inode: the children the snapshot has at its path, each once,
in bytewise name order, with the attributes projected from the remote nodes. -/
structure ListsSnapshot (db : Database) (inode : InodeId) (entries : List Inode)
    (path : List String) (node : NewRemoteInode) (digest : Digest)
    (children : List NewRemoteInode) : Prop where
  path_to : db.PathTo inode.sqlite path
  node_eq : nodeAt content rootDigest path = some node
  content_eq : node.content = .directory digest
  children_eq : snapshotChildren content digest = some children
  entries_perm : (entries.map Inode.view).Perm (children.map NewRemoteInode.view)
  entries_sorted : StrictlySorted (entries.map Inode.name)
  entries_parent : ∀ entry ∈ entries, entry.parent = inode
  entries_path_to : ∀ entry ∈ entries, db.PathTo entry.inode.sqlite (path ++ [entry.name])

/-- The result of a lookup: the child the snapshot has at the path of the parent. -/
structure ResolvesSnapshot (db : Database) (parent : InodeId) (name : String) (entry : Inode)
    (path : List String) (node child : NewRemoteInode) : Prop where
  path_to : db.PathTo parent.sqlite path
  node_eq : nodeAt content rootDigest path = some node
  child_eq : snapshotChild content node name = some child
  entry_view : entry.view = child.view
  entry_parent : entry.parent = parent
  entry_path_to : db.PathTo entry.inode.sqlite (path ++ [name])

/-- A session shows the snapshot below its root digest, whatever surrounds the next
operation. -/
structure RefinesSnapshot (s : Session) : Prop where
  path_unique : ∀ row ∈ s.store.database.inodes, ∃! path, s.store.database.PathTo row.id path
  path_injective : ∀ i j path, s.store.database.PathTo i path →
    s.store.database.PathTo j path → i = j
  row_node : ∀ row ∈ s.store.database.inodes, ∀ path, s.store.database.PathTo row.id path →
    ∃ n : Node, n.row = row ∧ nodeAt content rootDigest path = some n.remote
  path_kept : ∀ op : Operation, Honest content op.env → ∀ i path,
    s.store.database.PathTo i path → (s.after op).store.database.PathTo i path
  list_ok : ∀ env inode entries s', Honest content env →
    listDirectory env s inode = (.ok entries, s') → ∃ path node digest children,
      ListsSnapshot content rootDigest s'.store.database inode entries path node digest children
  lookup_ok : ∀ env parent name entry s', Honest content env →
    lookupChild env s parent name = (.ok entry, s') → ∃ path node child,
      ResolvesSnapshot content rootDigest s'.store.database parent name entry path node child
  lookup_then_list : ∀ env parent name entry s' env' entries s'', Honest content env →
    lookupChild env s parent name = (.ok entry, s') → Honest content env' →
    listDirectory env' s' parent = (.ok entries, s'') → entry ∈ entries
  list_then_lookup : ∀ env parent entries s' env' name entry s'', Honest content env →
    listDirectory env s parent = (.ok entries, s') → Honest content env' →
    lookupChild env' s' parent name = (.ok entry, s'') → entry ∈ entries
  lookup_notFound : ∀ env parent name e s' path, Honest content env → ValidName name →
    s.store.database.PathTo parent.sqlite path →
    lookupChild env s parent name = (.error e, s') → e.kind = .notFound →
    ∃ node, nodeAt content rootDigest path = some node ∧
      snapshotChild content node name = none

variable {content rootDigest} {s : Session} {ns : Namespace} {env : Surroundings}

omit [Uuid] in
theorem loadAnswer_eq_ok_iff (node : NewRemoteInode) (children : List NewRemoteInode) :
    loadAnswer content node = .ok children ↔ ∃ digest, node.content = .directory digest ∧
      snapshotChildren content digest = some children ∧ ValidChildren children := by
  constructor
  · intro h
    rw [loadAnswer] at h
    split at h
    · next digest hcontent =>
        split at h
        · cases h
        · next found hfound =>
            split at h
            · cases h
            · next hvalid =>
                cases h
                exact ⟨digest, hcontent, hfound,
                  (validateRemoteChildren_eq_ok_iff _).mp hvalid⟩
    · cases h
    · cases h
  · rintro ⟨digest, hcontent, hchildren, hvalid⟩
    exact loadAnswer_eq_ok hcontent hchildren hvalid

theorem Mounted.exists_path (h : Mounted content rootDigest s ns) {n : Node}
    (hn : n ∈ ns.nodes) :
    ∃ path, s.store.database.PathTo n.id.sqlite path ∧
      nodeAt content rootDigest path = some n.remote := by
  obtain ⟨path, hpath⟩ := exists_pathTo h.holds.nodes n.row (row_mem h.holds.nodes hn)
  obtain ⟨m, hm, hid, hnode⟩ := h.refines.snapshotNode_eq h.holds.nodes hpath
  rw [ns.eq_of_id_eq hm hn (InodeId.sqlite_inj.mp hid), h.root] at hnode
  exact ⟨path, hpath, hnode⟩

theorem Mounted.find_of_path (h : Mounted content rootDigest s ns) {inode : InodeId}
    {path : List String} (hpath : s.store.database.PathTo inode.sqlite path) :
    ∃ n, ns.find inode = some n ∧ nodeAt content rootDigest path = some n.remote := by
  obtain ⟨n, hn, hid, hnode⟩ := h.refines.snapshotNode_eq h.holds.nodes hpath
  rw [h.root] at hnode
  exact ⟨n, (ns.find_eq_some_iff inode n).mpr ⟨hn, InodeId.sqlite_inj.mp hid⟩, hnode⟩

theorem Mounted.child_path (h : Mounted content rootDigest s ns) {p c : Node}
    (hc : c ∈ ns.nodes) (hparent : c.parent = some p.id)
    {path : List String} (hpath : s.store.database.PathTo p.id.sqlite path) :
    s.store.database.PathTo c.id.sqlite (path ++ [c.remote.name]) :=
  .child c.row p.id.sqlite path (row_mem h.holds.nodes hc)
    ((row_parentId_eq_iff c p.id).mpr hparent) hpath

theorem Mounted.list_ok (h : Mounted content rootDigest s ns) (honest : Honest content env)
    {inode : InodeId} {entries : List Inode} {s' : Session}
    (hlist : listDirectory env s inode = (.ok entries, s')) :
    ∃ path node digest children,
      ListsSnapshot content rootDigest s'.store.database inode entries path node digest
        children := by
  obtain ⟨ns', n, h', -, hn, rfl, hloaded, rfl⟩ := h.listDirectory_eq_ok honest hlist
  obtain ⟨path, hpath, hnode⟩ := h'.exists_path hn
  obtain ⟨children, hanswer, hvalid, hsorted, -⟩ := map_remote_children h'.refines hn hloaded
  obtain ⟨digest, hcontent, hchildren, -⟩ := (loadAnswer_eq_ok_iff _ _).mp hanswer
  have hremotes : ((ns'.children n.id).map Node.remote).Perm children := by
    rw [hsorted]
    exact sortBy_perm _ children
  have hnames : ((ns'.children n.id).map fun c => projectInode c.inode).map Inode.name =
      (sortBy (fun child => nameKey child.name) children).map NewRemoteInode.name := by
    rw [← hsorted, List.map_map, List.map_map]
    rfl
  refine ⟨path, n.remote, digest, children, hpath, hnode, hcontent, hchildren, ?_, ?_, ?_, ?_⟩
  · have hviews := hremotes.map NewRemoteInode.view
    rw [List.map_map] at hviews
    rw [List.map_map]
    exact hviews
  · rw [hnames]
    exact Tree.DirectoryBuilder.strictlySorted_map_sortBy NewRemoteInode.name children
      hvalid.names_nodup
  · intro entry hentry
    obtain ⟨c, hc, rfl⟩ := List.mem_map.mp hentry
    obtain ⟨-, hparent⟩ := (ns'.mem_children_iff n.id c).mp hc
    simp only [projectInode, Node.inode, hparent, Option.getD_some]
  · intro entry hentry
    obtain ⟨c, hc, rfl⟩ := List.mem_map.mp hentry
    obtain ⟨hc, hparent⟩ := (ns'.mem_children_iff n.id c).mp hc
    exact h'.child_path hc hparent hpath

theorem Mounted.lookup_ok (h : Mounted content rootDigest s ns) (honest : Honest content env)
    {parent : InodeId} {name : String} {entry : Inode} {s' : Session}
    (hlookup : lookupChild env s parent name = (.ok entry, s')) :
    ∃ path node child,
      ResolvesSnapshot content rootDigest s'.store.database parent name entry path node
        child := by
  obtain ⟨ns', n, c, h', -, hn, rfl, -, hchild, rfl⟩ := h.lookupChild_eq_ok honest hlookup
  obtain ⟨hc, hparent, rfl⟩ := ns'.of_child_eq_some hchild
  obtain ⟨path, hpath, hnode⟩ := h'.exists_path hn
  refine ⟨path, n.remote, c.remote, hpath, hnode, h'.refines.snapshotChild_eq hn hc hparent,
    view_projectInode c, ?_, h'.child_path hc hparent hpath⟩
  simp only [projectInode, Node.inode, hparent, Option.getD_some]

theorem Mounted.lookup_then_list (h : Mounted content rootDigest s ns)
    (honest : Honest content env) {parent : InodeId} {name : String} {entry : Inode}
    {s' s'' : Session} {env' : Surroundings} {entries : List Inode}
    (hlookup : lookupChild env s parent name = (.ok entry, s'))
    (honest' : Honest content env')
    (hlist : listDirectory env' s' parent = (.ok entries, s'')) : entry ∈ entries := by
  obtain ⟨ns', n, c, h', -, -, -, -, hchild, rfl⟩ := h.lookupChild_eq_ok honest hlookup
  obtain ⟨hc, hparent, -⟩ := ns'.of_child_eq_some hchild
  obtain ⟨ns'', -, -, hgrows, -, -, -, rfl⟩ := h'.listDirectory_eq_ok honest' hlist
  obtain ⟨d, hd, hid, hsame, hremote⟩ := hgrows.2 c hc
  refine List.mem_map.mpr ⟨d, ?_, projectInode_eq hid hsame hremote⟩
  exact (ns''.mem_children_iff parent d).mpr ⟨hd, hsame.trans hparent⟩

theorem Mounted.list_then_lookup (h : Mounted content rootDigest s ns)
    (honest : Honest content env) {parent : InodeId} {entries : List Inode}
    {s' s'' : Session} {env' : Surroundings} {name : String} {entry : Inode}
    (hlist : listDirectory env s parent = (.ok entries, s'))
    (honest' : Honest content env')
    (hlookup : lookupChild env' s' parent name = (.ok entry, s'')) : entry ∈ entries := by
  obtain ⟨ns', n, h', -, hn, rfl, hloaded, rfl⟩ := h.listDirectory_eq_ok honest hlist
  obtain ⟨ns'', m, d, h'', hgrows, hm, hmid, hmloaded, hchild, rfl⟩ :=
    h'.lookupChild_eq_ok honest' hlookup
  obtain ⟨hd, hparent, -⟩ := ns''.of_child_eq_some hchild
  -- both listings of the directory are the children of one node of the snapshot
  obtain ⟨children, hanswer, -, -, hbelow⟩ := map_remote_children h'.refines hn hloaded
  obtain ⟨children', hanswer', -, -, hbelow'⟩ := map_remote_children h''.refines hm hmloaded
  rw [hgrows.remote_eq hn hm hmid, hanswer, Except.ok.injEq] at hanswer'
  have hmem : d.remote ∈ (ns'.below n.id).map Node.remote := by
    rw [hbelow, hanswer', ← hbelow', hmid]
    refine List.mem_map_of_mem (List.mem_filter.mpr ⟨hd, ?_⟩)
    simpa using hparent
  obtain ⟨c, hc, hremote⟩ := List.mem_map.mp hmem
  obtain ⟨hc, hcparent⟩ := List.mem_filter.mp hc
  have hcparent : c.parent = some n.id := by simpa using hcparent
  obtain ⟨c', hc', hid, hsame, hkept⟩ := hgrows.2 c hc
  have heq : c' = d := ns''.eq_of_place_eq hc' hd (hsame.trans (hcparent.trans hparent.symm))
    (by rw [hkept, hremote])
  refine List.mem_map.mpr ⟨c, (ns'.mem_children_iff n.id c).mpr ⟨hc, hcparent⟩, ?_⟩
  rw [← heq]
  exact (projectInode_eq hid hsame hkept).symm

theorem Mounted.lookup_notFound (h : Mounted content rootDigest s ns)
    (honest : Honest content env) {parent : InodeId} {name : String} {e : SessionError}
    {s' : Session} {path : List String} (hname : ValidName name)
    (hpath : s.store.database.PathTo parent.sqlite path)
    (hlookup : lookupChild env s parent name = (.error e, s')) (hkind : e.kind = .notFound) :
    ∃ node, nodeAt content rootDigest path = some node ∧
      snapshotChild content node name = none := by
  obtain ⟨n, hfind, hnode⟩ := h.find_of_path hpath
  refine ⟨n.remote, hnode, ?_⟩
  have hagrees := lookupChild_agrees h.holds h.active honest h.refines hfind name
  rw [hlookup] at hagrees
  have hanswer := hagrees.of_notFound hkind
  rw [lookupAnswer] at hanswer
  obtain hload | ⟨children, hload, hmiss⟩ := (Result.bind_eq_error_iff _ _ _).mp hanswer
  · exact absurd hload (loadAnswer_ne_notFound n.remote)
  · obtain ⟨digest, hcontent, hchildren, -⟩ := (loadAnswer_eq_ok_iff _ _).mp hload
    rw [if_pos hname] at hmiss
    simp only [snapshotChild, hcontent, hchildren, Option.bind_some]
    cases hfound : children.find? fun child => child.name = name with
    | none => rfl
    | some child =>
        rw [hfound] at hmiss
        cases hmiss

theorem Mounted.refinesSnapshot (h : Mounted content rootDigest s ns) :
    RefinesSnapshot content rootDigest s := by
  refine
    { path_unique := ?_
      path_injective := ?_
      row_node := ?_
      path_kept := ?_
      list_ok := ?_
      lookup_ok := ?_
      lookup_then_list := ?_
      list_then_lookup := ?_
      lookup_notFound := ?_ }
  · intro row hrow
    obtain ⟨path, hpath⟩ := exists_pathTo h.holds.nodes row hrow
    exact ⟨path, hpath, fun other hother => pathTo_unique h.holds.nodes hother hpath⟩
  · intro i j path hi hj
    exact pathTo_injective h.holds.nodes hi hj
  · intro row hrow path hpath
    obtain ⟨n, hn, rfl⟩ := exists_node_of_row h.holds.nodes hrow
    obtain ⟨path', hpath', hnode⟩ := h.exists_path hn
    rw [pathTo_unique h.holds.nodes hpath hpath']
    exact ⟨n, rfl, hnode⟩
  · intro op honest i path hpath
    obtain ⟨ns', h', hgrows⟩ := h.after op honest
    exact hgrows.pathTo h.holds.nodes h'.holds.nodes hpath
  · intro env inode entries s' honest hlist
    exact h.list_ok honest hlist
  · intro env parent name entry s' honest hlookup
    exact h.lookup_ok honest hlookup
  · intro env parent name entry s' env' entries s'' honest hlookup honest' hlist
    exact h.lookup_then_list honest hlookup honest' hlist
  · intro env parent entries s' env' name entry s'' honest hlist honest' hlookup
    exact h.list_then_lookup honest hlist honest' hlookup
  · intro env parent name e s' path honest hname hpath hlookup hkind
    exact h.lookup_notFound honest hname hpath hlookup hkind

/-! ### Two runs -/

/-- Two answers show the same, unless SQLite failed. -/
inductive SameAnswer {α β : Type} (view : α → β) :
    Except SessionError α → Except SessionError α → Prop
  | ok (a b : α) (h : view a = view b) : SameAnswer view (.ok a) (.ok b)
  | error (e f : SessionError) (h : e.kind = f.kind) : SameAnswer view (.error e) (.error f)
  | sqlite_left (e : SessionError) (answer : Except SessionError α) (h : e.FromSqlite) :
      SameAnswer view (.error e) answer
  | sqlite_right (e : SessionError) (answer : Except SessionError α) (h : e.FromSqlite) :
      SameAnswer view answer (.error e)

omit [Uuid] [Sha256] [Prost] in
/-- Answers that agree with one answer of the snapshot are the same. -/
theorem Agrees.sameAnswer {α β : Type} {P Q : Prop} {answer : Except ErrorKind β}
    {view : α → β} {left right : Except SessionError α} (hleft : Agrees P answer view left)
    (hright : Agrees Q answer view right) (hP : P) (hQ : Q) : SameAnswer view left right := by
  cases hleft with
  | sqlite e h => exact .sqlite_left e right h
  | fetch e h he => exact absurd hP h
  | ok a h =>
      cases hright with
      | ok b h' => exact .ok a b (Except.ok.inj (h.symm.trans h'))
      | error f h' => cases h.symm.trans h'
      | sqlite f h' => exact .sqlite_right f _ h'
      | fetch f h' hf => exact absurd hQ h'
  | error e h =>
      cases hright with
      | ok b h' => cases h.symm.trans h'
      | error f h' => exact .error e f (Except.error.inj (h.symm.trans h'))
      | sqlite f h' => exact .sqlite_right f _ h'
      | fetch f h' hf => exact absurd hQ h'

variable (content) in
/-- Two sessions answer alike at the same path when every fetch succeeds. -/
structure SameAnswers (s t : Session) : Prop where
  getInode : ∀ i j path env env', s.store.database.PathTo i.sqlite path →
    t.store.database.PathTo j.sqlite path →
      SameAnswer Inode.view (getInode env s i) (getInode env' t j)
  lookupChild : ∀ i j path name env env', s.store.database.PathTo i.sqlite path →
    t.store.database.PathTo j.sqlite path → Honest content env → Complete content env →
    Honest content env' → Complete content env' →
      SameAnswer Inode.view (lookupChild env s i name).1 (lookupChild env' t j name).1
  listDirectory : ∀ i j path env env', s.store.database.PathTo i.sqlite path →
    t.store.database.PathTo j.sqlite path → Honest content env → Complete content env →
    Honest content env' → Complete content env' →
      SameAnswer (List.map Inode.view) (listDirectory env s i).1 (listDirectory env' t j).1
  readRange : ∀ i j path offset size env env', s.store.database.PathTo i.sqlite path →
    t.store.database.PathTo j.sqlite path → Honest content env → Complete content env →
    Honest content env' → Complete content env' →
      SameAnswer id (readRange env s i offset size).1 (readRange env' t j offset size).1

theorem Mounted.sameAnswers {t : Session} {ms : Namespace}
    (h : Mounted content rootDigest s ns) (h' : Mounted content rootDigest t ms) :
    SameAnswers content s t := by
  have hnodes : ∀ i j path, s.store.database.PathTo i.sqlite path →
      t.store.database.PathTo j.sqlite path →
      ∃ m n, ns.find i = some m ∧ ms.find j = some n ∧ m.remote = n.remote := by
    intro i j path hi hj
    obtain ⟨m, hm, hnode⟩ := h.find_of_path hi
    obtain ⟨n, hn, hnode'⟩ := h'.find_of_path hj
    exact ⟨m, n, hm, hn, Option.some.inj (hnode.symm.trans hnode')⟩
  constructor
  · intro i j path env env' hi hj
    obtain ⟨m, n, hm, hn, hsame⟩ := hnodes i j path hi hj
    have hleft : Agrees True (.ok m.remote.view) Inode.view (getInode env s i) :=
      getInode_agrees h.holds h.active True hm
    rw [hsame] at hleft
    exact hleft.sameAnswer (getInode_agrees h'.holds h'.active True hn) trivial trivial
  · intro i j path name env env' hi hj honest hcomplete honest' hcomplete'
    obtain ⟨m, n, hm, hn, hsame⟩ := hnodes i j path hi hj
    have hleft := lookupChild_agrees h.holds h.active honest h.refines hm name
    rw [hsame] at hleft
    exact hleft.sameAnswer (lookupChild_agrees h'.holds h'.active honest' h'.refines hn name)
      hcomplete hcomplete'
  · intro i j path env env' hi hj honest hcomplete honest' hcomplete'
    obtain ⟨m, n, hm, hn, hsame⟩ := hnodes i j path hi hj
    have hleft := listDirectory_agrees h.holds h.active honest h.refines hm
    rw [hsame] at hleft
    exact hleft.sameAnswer (listDirectory_agrees h'.holds h'.active honest' h'.refines hn)
      hcomplete hcomplete'
  · intro i j path offset size env env' hi hj honest hcomplete honest' hcomplete'
    obtain ⟨m, n, hm, hn, hsame⟩ := hnodes i j path hi hj
    have hleft := readRange_agrees h.holds h.active honest hm offset size
    rw [hsame] at hleft
    exact hleft.sameAnswer (readRange_agrees h'.holds h'.active honest' hn offset size)
      hcomplete hcomplete'

/-- In every state of every run a session shows the snapshot below its root digest,
and two runs answer alike at the same path. -/
theorem session_refinesSnapshot (content : Digest → Option Bytes) (rootDigest : Digest)
    (sqlite sqlite' : Sqlite) (databasePath databasePath' : PathBuf)
    (sessionId sessionId' : String) (daemonPid daemonPid' : UInt32)
    (mountpoint mountpoint' : PathBuf) (clock clock' : ℤ) (store store' : SessionStore)
    (operations operations' : List Operation) (s t : Session)
    (hcreate : SessionStore.create sqlite databasePath sessionId daemonPid rootDigest
      mountpoint clock = .ok store)
    (hcreate' : SessionStore.create sqlite' databasePath' sessionId' daemonPid' rootDigest
      mountpoint' clock' = .ok store')
    (honest : ∀ op ∈ operations, Honest content op.env)
    (honest' : ∀ op ∈ operations', Honest content op.env)
    (hrun : Transition.run (fun s op => some (Session.after s op)) (opened rootDigest store)
      operations = some s)
    (hrun' : Transition.run (fun s op => some (Session.after s op)) (opened rootDigest store')
      operations' = some t) :
    RefinesSnapshot content rootDigest s ∧ SameAnswers content s t := by
  obtain ⟨ns, h⟩ := mounted_of_run hcreate honest hrun
  obtain ⟨ms, h'⟩ := mounted_of_run hcreate' honest' hrun'
  exact ⟨h.refinesSnapshot, h.sameAnswers h'⟩

end Client

/-! ### A sample mount -/

namespace Sample

/-- Quiet surroundings in which every blob of the store can be read. -/
def surroundings (content : Digest → Option Bytes) : Surroundings where
  inodeSqlite := quiet
  loadSqlite := quiet
  readSqlite := quiet
  readBlob digest :=
    match content digest with
    | some bytes => .ok (bytes, true)
    | none => .error (internalError s!"stream remote blob {digest.display}: not found")
  readRange digest offset size :=
    match content digest with
    | some bytes => .ok ((bytes.drop offset).take size, true)
    | none => .error (internalError s!"stream remote blob {digest.display}: not found")
  readOverlay _ _ _ := .error (internalError "read file bytes: not found")

theorem surroundings_honest (content : Digest → Option Bytes) :
    Honest content (surroundings content) := by
  constructor
  · intro digest bytes downloaded h
    simp only [surroundings] at h
    split at h
    · next hcontent =>
        cases h
        exact hcontent
    · cases h
  · intro digest e h
    simp only [surroundings] at h
    split at h
    · cases h
    · cases h
      rfl
  · intro digest offset size bytes downloaded h
    simp only [surroundings] at h
    split at h
    · next blob hcontent =>
        cases h
        exact ⟨blob, hcontent, rfl⟩
    · cases h
  · intro digest offset size e h
    simp only [surroundings] at h
    split at h
    · cases h
    · cases h
      rfl

theorem surroundings_complete (content : Digest → Option Bytes) :
    Complete content (surroundings content) := by
  constructor
  · intro digest bytes hcontent
    refine ⟨true, ?_⟩
    simp only [surroundings, hcontent]
  · intro digest blob offset size hcontent
    refine ⟨true, ?_⟩
    simp only [surroundings, hcontent]

def directoryDigest : Digest :=
  Tree.Sample.directoryDigest

def rootDigest : Digest where
  hash := "1be06b2ce98f4fdaf42bfd4c06f1798f43bf378c4c32fe5835794e01ae4546f2"
  sizeBytes := 150
  hash_valid := ⟨by decide, by decide⟩
  size_le := by decide

/-- A root with two directories of the same content. -/
def root : Reapi.Directory where
  files := []
  directories :=
    [{ name := "a", digest := some directoryDigest.toReapi, nodeProperties := none },
      { name := "b", digest := some directoryDigest.toReapi, nodeProperties := none }]
  symlinks := []
  nodeProperties := none

def rootBytes : Bytes :=
  [18, 73, 10, 1, 97, 18, 68, 10, 64, 57, 57, 102, 97, 100, 101, 52, 57, 53, 102, 48, 98, 49,
    48, 53, 52, 98, 56, 100, 99, 98, 53, 50, 56, 48, 100, 102, 56, 56, 54, 49, 55, 102, 102,
    49, 101, 51, 100, 53, 99, 98, 101, 48, 48, 100, 54, 49, 54, 102, 52, 99, 55, 97, 49, 57,
    100, 48, 98, 48, 97, 101, 49, 50, 100, 16, 110, 18, 73, 10, 1, 98, 18, 68, 10, 64, 57, 57,
    102, 97, 100, 101, 52, 57, 53, 102, 48, 98, 49, 48, 53, 52, 98, 56, 100, 99, 98, 53, 50,
    56, 48, 100, 102, 56, 56, 54, 49, 55, 102, 102, 49, 101, 51, 100, 53, 99, 98, 101, 48, 48,
    100, 54, 49, 54, 102, 52, 99, 55, 97, 49, 57, 100, 48, 98, 48, 97, 101, 49, 50, 100, 16,
    110]

@[reducible] def sha256 : Sha256 :=
  Tree.Sample.sha256 ((rootBytes, #v[27, 224, 107, 44, 233, 143, 79, 218, 244, 43, 253, 76, 6,
    241, 121, 143, 67, 191, 55, 140, 76, 50, 254, 88, 53, 121, 78, 1, 174, 69, 70, 242]) ::
    Tree.Sample.blobs)

/-- The wire format on the two directories of the sample. -/
@[reducible] def prost : Prost where
  encodeToVec directory := if directory = root then rootBytes else Tree.Sample.bytes
  decode bytes :=
    if bytes = rootBytes then .ok root
    else if bytes = Tree.Sample.bytes then .ok Tree.Sample.directory
    else .error "failed to decode Protobuf message"

def content (digest : Digest) : Option Bytes :=
  if digest = rootDigest then some rootBytes
  else if digest = directoryDigest then some Tree.Sample.bytes
  else if digest = Tree.Sample.contentDigest then some Tree.Sample.content
  else none

/-- List the root, then the directories in an order. -/
def listings (order : List InodeId) : List Operation :=
  (.root :: order).map (.listDirectory (surroundings content))

theorem listings_honest (order : List InodeId) (op : Operation) (hop : op ∈ listings order) :
    Honest content op.env := by
  obtain ⟨inode, -, rfl⟩ := List.mem_map.mp hop
  exact surroundings_honest content

end Sample

theorem session_refinesSnapshot_sample :
    letI : Uuid := Sample.uuid
    letI : Sha256 := Sample.sha256
    letI : Prost := Sample.prost
    ∃ store s t,
      SessionStore.create Sample.quiet [.utf8 "session.db"]
        "67e55044-10b1-426f-9247-bb680e5fe0c8" 7 Sample.rootDigest
        [.utf8 "", .utf8 "mnt"] 3 = .ok store ∧
      Transition.run (fun s op => some (Session.after s op)) (opened Sample.rootDigest store)
        (Sample.listings [⟨2, by decide⟩, ⟨3, by decide⟩]) = some s ∧
      Transition.run (fun s op => some (Session.after s op)) (opened Sample.rootDigest store)
        (Sample.listings [⟨3, by decide⟩, ⟨2, by decide⟩]) = some t ∧
      RefinesSnapshot Sample.content Sample.rootDigest s ∧
      SameAnswers Sample.content s t := by
  let _ : Uuid := Sample.uuid
  let _ : Sha256 := Sample.sha256
  let _ : Prost := Sample.prost
  have hcreate : ∃ store, SessionStore.create Sample.quiet [.utf8 "session.db"]
      "67e55044-10b1-426f-9247-bb680e5fe0c8" 7 Sample.rootDigest [.utf8 "", .utf8 "mnt"] 3 =
        .ok store := ⟨_, rfl⟩
  obtain ⟨store, hcreate⟩ := hcreate
  -- every operation is total, so each run has a last state
  have hrun := Transition.run_total Session.after (opened Sample.rootDigest store)
  exact ⟨store, _, _, hcreate, hrun _, hrun _,
    session_refinesSnapshot Sample.content Sample.rootDigest Sample.quiet Sample.quiet
      [.utf8 "session.db"] [.utf8 "session.db"] "67e55044-10b1-426f-9247-bb680e5fe0c8"
      "67e55044-10b1-426f-9247-bb680e5fe0c8" 7 7 [.utf8 "", .utf8 "mnt"]
      [.utf8 "", .utf8 "mnt"] 3 3 store store _ _ _ _ hcreate hcreate
      (Sample.listings_honest _) (Sample.listings_honest _) (hrun _) (hrun _)⟩

/-- Inode numbers follow the order of the loads: two runs that list the same
directories in different orders give different answers for one inode, though every
fetch succeeds. -/
theorem answers_depend_on_load_order :
    letI : Uuid := Sample.uuid
    letI : Sha256 := Sample.sha256
    letI : Prost := Sample.prost
    ∃ store s t,
      SessionStore.create Sample.quiet [.utf8 "session.db"]
        "67e55044-10b1-426f-9247-bb680e5fe0c8" 7 Sample.rootDigest
        [.utf8 "", .utf8 "mnt"] 3 = .ok store ∧
      (∀ op ∈ Sample.listings [⟨2, by decide⟩, ⟨3, by decide⟩],
        Honest Sample.content op.env ∧ Complete Sample.content op.env) ∧
      (Sample.listings [⟨2, by decide⟩, ⟨3, by decide⟩]).Perm
        (Sample.listings [⟨3, by decide⟩, ⟨2, by decide⟩]) ∧
      Transition.run (fun s op => some (Session.after s op)) (opened Sample.rootDigest store)
        (Sample.listings [⟨2, by decide⟩, ⟨3, by decide⟩]) = some s ∧
      Transition.run (fun s op => some (Session.after s op)) (opened Sample.rootDigest store)
        (Sample.listings [⟨3, by decide⟩, ⟨2, by decide⟩]) = some t ∧
      (getInode (Sample.surroundings Sample.content) s ⟨4, by decide⟩).map
        (fun inode => inode.parent.value) = .ok 2 ∧
      (getInode (Sample.surroundings Sample.content) t ⟨4, by decide⟩).map
        (fun inode => inode.parent.value) = .ok 3 := by
  let _ : Uuid := Sample.uuid
  let _ : Sha256 := Sample.sha256
  let _ : Prost := Sample.prost
  refine ⟨_, _, _, rfl, ?_, ?_, Transition.run_total Session.after _ _,
    Transition.run_total Session.after _ _, by decide +kernel⟩
  · intro op hop
    obtain ⟨inode, -, rfl⟩ := List.mem_map.mp hop
    exact ⟨Sample.surroundings_honest _, Sample.surroundings_complete _⟩
  · exact ((List.Perm.swap _ _ _).cons _).map _

end Session

end RemoteFs
