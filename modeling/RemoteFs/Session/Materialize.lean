import RemoteFs.Session.Snapshot

/-!
# Materialization is lossless

An unloaded directory is given its children by writing one row for each and reading
the rows back. `Stores` says that a stored inode is a proposed child, column by
column, and `StoredRows` what is left in the table. The store accepts a proposal exactly
when it is a `ValidChildren`, SQLite failures aside, and what it returns is the proposal in
name order.
-/

namespace RemoteFs

namespace Session

open SortBy (sortBy)

/-- A stored inode holds a proposed child, below a parent and as it was proposed. -/
structure Stores (parent : InodeId) (child : NewRemoteInode) (inode : StoreInode) : Prop where
  parent_eq : inode.parent = some parent
  name : inode.name = child.name
  kind : inode.kind = child.content.kind
  mode : inode.mode = child.mode
  mtime : inode.mtime = child.mtime
  tombstone : inode.tombstone = false
  overlay : inode.fileOverlayPath = none
  file : ∀ digest, child.content = .file digest →
    inode.fileRemoteDigest = some digest ∧ inode.fileContentDirty = some false ∧
      inode.symlinkTarget = none ∧ inode.directoryRemoteDigest = none ∧
      inode.directoryLoaded = none
  directory : ∀ digest, child.content = .directory digest →
    inode.directoryRemoteDigest = some digest ∧ inode.directoryLoaded = some false ∧
      inode.fileRemoteDigest = none ∧ inode.fileContentDirty = none ∧
      inode.symlinkTarget = none
  symlink : ∀ target, child.content = .symlink target →
    inode.symlinkTarget = some target ∧ inode.fileRemoteDigest = none ∧
      inode.fileContentDirty = none ∧ inode.directoryRemoteDigest = none ∧
      inode.directoryLoaded = none

theorem stores_inode {parent : InodeId} {n : Node} (hparent : n.parent = some parent)
    (hloaded : n.loaded = false) : Stores parent n.remote n.inode where
  parent_eq := hparent
  name := rfl
  kind := rfl
  mode := rfl
  mtime := rfl
  tombstone := rfl
  overlay := rfl
  file := by
    intro digest hcontent
    simp only [Node.inode, hcontent, and_self]
  directory := by
    intro digest hcontent
    simp only [Node.inode, hcontent, hloaded, and_self]
  symlink := by
    intro target hcontent
    simp only [Node.inode, hcontent, and_self]

theorem lastAfter_value (children : List NewRemoteInode) :
    ∀ last : InodeId, (lastAfter last children).value = last.value + children.length := by
  induction children with
  | nil => exact fun last => (Int.add_zero _).symm
  | cons child children ih =>
      intro last
      rw [lastAfter, ih, List.length_cons]
      simp only [InodeId.succ]
      omega

theorem Namespace.children_load {ns : Namespace} {parent : InodeId}
    {children : List NewRemoteInode} (h : ns.Loadable parent children) :
    (ns.load parent children h).children parent =
      sortBy (fun n => nameKey n.remote.name) (newNodes parent ns.last children) :=
  congrArg _ (Namespace.below_load h)

/-- What a materialization returns: the proposal in name order, under new identities. -/
structure Materialized (store : SessionStore) (parent : InodeId)
    (children : List NewRemoteInode) (stored : List StoreInode) : Prop where
  stores : List.Forall₂ (Stores parent)
    (sortBy (fun child => nameKey child.name) children) stored
  ids_nodup : (stored.map StoreInode.id).Nodup
  fresh : ∀ inode ∈ stored, ∀ row ∈ store.database.inodes, row.id ≠ inode.id.sqlite

/-- What a materialization leaves in the inode table: the rows that were there, with the parent
marked as loaded, and a row for each child as it was proposed, which reads as the inode that was
returned. -/
structure StoredRows (before after : Database) (parent : InodeId)
    (children : List NewRemoteInode) (stored : List StoreInode) : Prop where
  kept : (before.markDirectoryLoaded parent.sqlite).inodes <+: after.inodes
  directory_loaded : ∃ row ∈ after.inodes, row.id = parent.sqlite ∧ row.directoryLoaded = some 1
  created : List.Forall₂
    (fun child inode =>
      { newRow (some parent) child with id := inode.id.sqlite } ∈ after.inodes ∧
        validateInodeRow { newRow (some parent) child with id := inode.id.sqlite } = .ok inode)
    (sortBy (fun child => nameKey child.name) children) stored
  length_eq : after.inodes.length = before.inodes.length + children.length

section Materialize

variable [Uuid] {store : SessionStore} {ns : Namespace}

omit [Uuid] in
theorem sortBy_children_eq (parent last : InodeId) (children : List NewRemoteInode) :
    sortBy (fun child => nameKey child.name) children =
      (sortBy (fun n : Node => nameKey n.remote.name)
        (newNodes parent last children)).map Node.remote := by
  rw [SortBy.map_sortBy _ (fun child => nameKey child.name) Node.remote _ fun _ => rfl,
    map_remote_newNodes]

theorem materialized_load {parent : InodeId} {children : List NewRemoteInode}
    (h : store.database.Holds ns) (hload : ns.Loadable parent children) :
    Materialized store parent children
      (((ns.load parent children hload).children parent).map Node.inode) := by
  rw [Namespace.children_load]
  refine ⟨?_, ?_, ?_⟩
  · rw [sortBy_children_eq parent ns.last, List.forall₂_map_left_iff,
      List.forall₂_map_right_iff, List.forall₂_same]
    intro n hn
    have hnew := newNode_of_mem children ns.last ((SortBy.mem_sortBy _ _ _).mp hn)
    exact stores_inode hnew.parent_eq hnew.unloaded
  · have hids : ((newNodes parent ns.last children).map Node.id).Nodup := by
      rw [List.nodup_iff_pairwise_ne, List.pairwise_map]
      refine (newNodes_ids parent children ns.last).imp ?_
      intro m n hlt heq
      rw [heq] at hlt
      exact lt_irrefl _ hlt
    rw [List.map_map]
    exact (((SortBy.sortBy_perm _ _).map _).nodup_iff).mpr hids
  · intro inode hinode row hrow hid
    obtain ⟨n, hn, rfl⟩ := List.mem_map.mp hinode
    obtain ⟨m, hm, rfl⟩ := exists_node_of_row h.nodes hrow
    have hlt := (newNode_of_mem children ns.last ((SortBy.mem_sortBy _ _ _).mp hn)).lt_id
    have hle := ns.ids_le m hm
    have heq : m.id = n.id := InodeId.sqlite_inj.mp hid
    rw [← heq] at hlt
    omega

omit [Uuid] in
theorem storedRows_load {before after : Database} {parent : InodeId}
    {children : List NewRemoteInode} (h : before.HoldsNodes ns.nodes)
    (hload : ns.Loadable parent children)
    (hafter : after.HoldsNodes (ns.load parent children hload).nodes) :
    StoredRows before after parent children
      (((ns.load parent children hload).children parent).map Node.inode) := by
  obtain ⟨p, hp, hid, hkind, -⟩ := hload.directory
  have hmarked : (before.markDirectoryLoaded parent.sqlite).HoldsNodes
      (ns.nodes.map (Node.markLoaded parent)) := by
    refine h.markDirectoryLoaded fun n hn heq => ?_
    rw [ns.eq_of_id_eq hn hp (heq.trans hid.symm)]
    exact hkind
  have hrows : after.inodes = (before.markDirectoryLoaded parent.sqlite).inodes ++
      (newNodes parent ns.last children).map Node.row := by
    rw [hafter, hmarked, ← List.map_append]
    rfl
  refine ⟨⟨_, hrows.symm⟩, ?_, ?_, ?_⟩
  · refine ⟨(p.markLoaded parent).row, ?_, ?_, ?_⟩
    · rw [hrows, hmarked]
      exact List.mem_append_left _ (List.mem_map_of_mem (List.mem_map_of_mem hp))
    · exact congrArg InodeId.sqlite hid
    · rw [row_directoryLoaded_eq (p.markLoaded parent) hkind]
      simp [Node.markLoaded, hid]
  · rw [Namespace.children_load, sortBy_children_eq parent ns.last, List.forall₂_map_left_iff,
      List.forall₂_map_right_iff, List.forall₂_same]
    intro n hn
    have hnew := (SortBy.mem_sortBy _ _ _).mp hn
    have hcreated := newNode_of_mem children ns.last hnew
    have hrow : { newRow (some parent) n.remote with id := n.inode.id.sqlite } = n.row := by
      refine (row_of_newRow n.id (some parent) n.remote).trans ?_
      rw [← hcreated.parent_eq, ← hcreated.unloaded]
    rw [hrow, hrows]
    refine ⟨List.mem_append_right _ (List.mem_map_of_mem hnew), validateInodeRow_row ?_⟩
    exact (ns.load parent children hload).valid n (List.mem_append_right _ hnew)
  · have hlength := congrArg List.length (map_remote_newNodes parent children ns.last)
    rw [List.length_map] at hlength
    rw [hrows, List.length_append, List.length_map, hlength]
    simp [Database.markDirectoryLoaded]

omit [Uuid] in
theorem exists_unloaded_node {db : Database} {parent : InodeId}
    (h : db.HoldsNodes ns.nodes)
    (hrow : ∃ row ∈ db.inodes, row.id = parent.sqlite ∧ row.kind = "directory" ∧
      row.directoryLoaded = some 0) :
    ∃ p ∈ ns.nodes, p.id = parent ∧ p.remote.content.kind = .directory ∧ p.loaded = false := by
  obtain ⟨row, hrow, hid, hkind, hloaded⟩ := hrow
  obtain ⟨p, hp, rfl⟩ := exists_node_of_row h hrow
  have hdirectory := (row_kind_eq_directory_iff p).mp hkind
  rw [row_directoryLoaded_eq p hdirectory] at hloaded
  refine ⟨p, hp, InodeId.sqlite_inj.mp hid, hdirectory, ?_⟩
  cases hp : p.loaded with
  | false => rfl
  | true =>
      rw [hp] at hloaded
      cases hloaded

/-- On an unloaded directory of an active store the proposal is materialized, or it is
not valid, or SQLite fails. -/
theorem materialize_cases {parent : InodeId} (h : store.database.Holds ns)
    (hactive : store.database.Active)
    (hunloaded : ∃ p ∈ ns.nodes, p.id = parent ∧ p.remote.content.kind = .directory ∧
      p.loaded = false) (sqlite : Sqlite) (children : List NewRemoteInode) :
    (∃ stored, (store.getOrCreateRemoteDirChildren sqlite parent children).1 = .ok stored ∧
        ValidChildren children ∧ Materialized store parent children stored ∧
        StoredRows store.database
          (store.getOrCreateRemoteDirChildren sqlite parent children).2.database parent children
          stored) ∨
      ∃ e, (store.getOrCreateRemoteDirChildren sqlite parent children).1 = .error e ∧
        (¬ ValidChildren children ∨ e.FromSqlite ∧
          (sqlite.Quiet → i64Max < store.database.sequence + children.length)) := by
  obtain ⟨p, hp, hid, hkind, hloaded⟩ := hunloaded
  have hfind : ns.find parent = some p := (ns.find_eq_some_iff parent p).mpr ⟨hp, hid⟩
  obtain ⟨e, hcall, hcause⟩ | ⟨-, ⟨q, hq, hqid, hqloaded⟩, -⟩ | ⟨hload, db, -, hcall, hafter, -⟩ :=
    getOrCreateRemoteDirChildren_cases h sqlite parent children
  · refine .inr ⟨e, by rw [hcall], ?_⟩
    obtain hfailure | ⟨source, rfl, hcause⟩ := hcause
    · exact .inr ⟨hfailure.1, fun hquiet => absurd hquiet hfailure.2⟩
    · cases hcause with
      | sqlite hsqlite hfull =>
          refine .inr ⟨hsqlite.context _, fun hquiet => ?_⟩
          have hlast := hfull hquiet
          rw [lastAfter_value, ← h.sequence] at hlast
          exact hlast
      | inactive hinactive => exact absurd hactive hinactive
      | missing hmissing =>
          rw [hfind] at hmissing
          cases hmissing
      | kind q hq hqkind =>
          rw [hfind, Option.some.injEq] at hq
          exact absurd (hq ▸ hkind) hqkind
      | invalid hinvalid => exact .inl hinvalid
  · obtain rfl := ns.eq_of_id_eq hq hp (hqid.trans hid.symm)
    rw [hqloaded.2] at hloaded
    cases hloaded
  · refine .inl ⟨_, by rw [hcall], hload.children_valid, materialized_load h hload, ?_⟩
    rw [hcall]
    exact storedRows_load h.nodes hload hafter.nodes

end Materialize

/-- For every unloaded directory of a reachable active store: a proposal is accepted
exactly when its names are valid and pairwise different and its modes fit, SQLite
failures aside, and the answer is then the proposal in name order under new identities. The
table has a row for each child that reads as the answer, and the directory is marked as loaded.
SQLite can fail without being disturbed only when the identities run out. -/
theorem materialization_lossless [Uuid] (rootDigest : Digest) (store : SessionStore)
    (hreached : store.Reached rootDigest) (hactive : store.database.Active)
    (parent : InodeId)
    (hunloaded : ∃ row ∈ store.database.inodes, row.id = parent.sqlite ∧
      row.kind = "directory" ∧ row.directoryLoaded = some 0)
    (sqlite : Sqlite) (children : List NewRemoteInode) :
    ((∀ e, (store.getOrCreateRemoteDirChildren sqlite parent children).1 = .error e →
        ¬ e.FromSqlite) →
      ((∃ stored, (store.getOrCreateRemoteDirChildren sqlite parent children).1 = .ok stored) ↔
        ValidChildren children)) ∧
      (∀ stored, (store.getOrCreateRemoteDirChildren sqlite parent children).1 = .ok stored →
        ValidChildren children ∧ Materialized store parent children stored ∧
        StoredRows store.database
          (store.getOrCreateRemoteDirChildren sqlite parent children).2.database parent children
          stored) ∧
      ∀ e, (store.getOrCreateRemoteDirChildren sqlite parent children).1 = .error e →
        ValidChildren children → e.FromSqlite ∧
          (sqlite.Quiet → i64Max < store.database.sequence + children.length) := by
  obtain ⟨ns, -, h⟩ := hreached.holdsRoot
  obtain ⟨stored, hok, hvalid, hstored⟩ | ⟨e, herror, hcause⟩ :=
    materialize_cases h hactive (exists_unloaded_node h.nodes hunloaded) sqlite children
  · rw [hok]
    refine ⟨fun _ => ⟨fun _ => hvalid, fun _ => ⟨stored, rfl⟩⟩, ?_, ?_⟩
    · intro other hother
      cases hother
      exact ⟨hvalid, hstored⟩
    · intro e he
      cases he
  · rw [herror]
    refine ⟨fun haside => ⟨?_, fun hvalid => ?_⟩, ?_, ?_⟩
    · rintro ⟨stored, hstored⟩
      cases hstored
    · obtain hinvalid | ⟨hsqlite, -⟩ := hcause
      · exact absurd hvalid hinvalid
      · exact absurd hsqlite (haside e rfl)
    · intro stored hstored
      cases hstored
    · intro e' he' hvalid
      cases he'
      obtain hinvalid | hsqlite := hcause
      · exact absurd hvalid hinvalid
      · exact hsqlite

/-- The unloaded root of a new store, given a file and a directory. -/
theorem materialization_lossless_sample :
    letI : Uuid := Sample.uuid
    ∃ store : SessionStore, store.Reached Sample.digest ∧ store.database.Active ∧
      ∃ stored, (store.getOrCreateRemoteDirChildren Sample.quiet .root
          [Sample.fileChild, Sample.directoryChild]).1 = .ok stored ∧
        Materialized store .root [Sample.fileChild, Sample.directoryChild] stored ∧
        StoredRows store.database (store.getOrCreateRemoteDirChildren Sample.quiet .root
          [Sample.fileChild, Sample.directoryChild]).2.database .root
          [Sample.fileChild, Sample.directoryChild] stored := by
  let _ : Uuid := Sample.uuid
  have hcreate : ∃ store, SessionStore.create Sample.quiet [.utf8 "session.db"]
      "67e55044-10b1-426f-9247-bb680e5fe0c8" 7 Sample.digest [.utf8 "", .utf8 "mnt"] 3 =
        .ok store := ⟨_, rfl⟩
  obtain ⟨store, hcreate⟩ := hcreate
  obtain ⟨hholds, hactive⟩ := create_holds hcreate
  have hreached : store.Reached Sample.digest := ⟨_, _, _, _, _, _, store, [], hcreate, rfl⟩
  have hvalid : ValidChildren [Sample.fileChild, Sample.directoryChild] := by
    refine ⟨by decide, by decide, ?_⟩
    simp [Sample.fileChild, Sample.directoryChild]
  have hunloaded : ∃ row ∈ store.database.inodes, row.id = InodeId.root.sqlite ∧
      row.kind = "directory" ∧ row.directoryLoaded = some 0 :=
    ⟨(rootNode Sample.digest false).row, row_mem hholds.nodes (List.mem_singleton_self _), rfl,
      rfl, rfl⟩
  obtain ⟨haccepts, hstored, herror⟩ := materialization_lossless Sample.digest store hreached
    hactive .root hunloaded Sample.quiet [Sample.fileChild, Sample.directoryChild]
  have haside : ∀ e, (store.getOrCreateRemoteDirChildren Sample.quiet .root
      [Sample.fileChild, Sample.directoryChild]).1 = .error e → ¬ e.FromSqlite := by
    intro e he _
    have hfull := (herror e he hvalid).2 fun _ => rfl
    rw [hholds.sequence] at hfull
    exact absurd hfull (by decide)
  obtain ⟨stored, hok⟩ := (haccepts haside).mpr hvalid
  exact ⟨store, hreached, hactive, stored, hok, (hstored stored hok).2⟩

end Session

end RemoteFs
