import RemoteFs.Session.Mount
import RemoteFs.Session.Stable

/-!
# A session that serves requests

`Serving` is what every state of an active session has, whatever its surroundings do: the
store holds a namespace. Unlike `Mounted` it asks nothing of the reads of the cache. Every
operation extends the namespace, so what a loaded directory lists stays the same from its
load on.
-/

namespace RemoteFs

namespace Session

open RemoteFs.Tree (StrictlySorted)

section Serving

variable [Uuid]

/-- An active session whose store holds a namespace. -/
structure Serving (s : Session) (ns : Namespace) : Prop where
  holds : s.store.database.Holds ns
  active : s.store.database.Active

/-- The visible children of a directory, in name order. -/
def Namespace.entries (ns : Namespace) (inode : InodeId) : List Inode :=
  (ns.children inode).map fun c => projectInode c.inode

/-- The children of an inode that is a loaded directory. -/
def Namespace.IsLoadedAt (ns : Namespace) (inode : InodeId) : Prop :=
  ∃ p ∈ ns.nodes, p.id = inode ∧ p.IsLoaded

omit [Uuid] in
theorem Namespace.Extends.isLoadedAt {ns ns' : Namespace} (h : ns.Extends ns')
    {inode : InodeId} (hloaded : ns.IsLoadedAt inode) : ns'.IsLoadedAt inode := by
  obtain ⟨p, hp, hid, hloaded⟩ := hloaded
  obtain ⟨q, hq, hqid, hqloaded⟩ := h.isLoaded hp hloaded
  exact ⟨q, hq, hqid.trans hid, hqloaded⟩

omit [Uuid] in
theorem Namespace.Extends.entries {ns ns' : Namespace} (h : ns.Extends ns')
    {inode : InodeId} (hloaded : ns.IsLoadedAt inode) :
    ns'.entries inode = ns.entries inode := by
  obtain ⟨p, hp, rfl, hloaded⟩ := hloaded
  have hproject : ∀ nodes : List Node, (nodes.map fun c => projectInode c.inode) =
      ((nodes.map Node.inode).map StoreInode.unflagged).map projectInode := by
    intro nodes
    rw [List.map_map, List.map_map]
    rfl
  rw [Namespace.entries, Namespace.entries, hproject, hproject, h.unflagged_children hp hloaded]

omit [Uuid] in
theorem Namespace.entries_parent (ns : Namespace) (inode : InodeId) (entry : Inode)
    (hentry : entry ∈ ns.entries inode) : entry.parent = inode := by
  obtain ⟨c, hc, rfl⟩ := List.mem_map.mp hentry
  have hparent := ((ns.mem_children_iff inode c).mp hc).2
  simp [projectInode, Node.inode, hparent]

omit [Uuid] in
theorem Namespace.entries_sorted (ns : Namespace) (inode : InodeId) :
    StrictlySorted ((ns.entries inode).map Inode.name) := by
  have hnodup : ((ns.below inode).map fun n => nameKey n.remote.name).Nodup := by
    rw [List.nodup_iff_pairwise_ne, List.pairwise_map]
    refine (ns.names.filter _).imp_of_mem ?_
    intro m n hm hn hne hkey
    have hm := (List.mem_filter.mp hm).2
    have hn := (List.mem_filter.mp hn).2
    simp only [decide_eq_true_eq] at hm hn
    exact hne (hm.trans hn.symm) (nameKey_inj.mp hkey)
  rw [StrictlySorted, Namespace.entries, List.map_map, List.pairwise_map]
  exact SortBy.sortBy_pairwise_lt _ _ hnodup

omit [Uuid] in
theorem Namespace.Extends.find {ns ns' : Namespace} (h : ns.Extends ns') {inode : InodeId}
    {n : Node} (hn : ns.find inode = some n) :
    ∃ m, ns'.find inode = some m ∧ projectInode m.inode = projectInode n.inode := by
  obtain ⟨hmem, hid⟩ := (ns.find_eq_some_iff inode n).mp hn
  obtain ⟨m, hm, herased, -⟩ := h.old n hmem
  obtain ⟨hmid, hparent, hremote⟩ := Node.eq_of_erased_eq herased
  exact ⟨m, (ns'.find_eq_some_iff inode m).mpr ⟨hm, hmid.trans hid⟩,
    projectInode_eq hmid hparent hremote⟩

variable [Sha256] [Prost] {s : Session} {ns : Namespace} {env : Surroundings}

omit [Sha256] [Prost] in
theorem Serving.getInode_eq_ok (h : Serving s ns) {inode : InodeId} {node : Inode}
    (hnode : getInode env s inode = .ok node) :
    ∃ n, ns.find inode = some n ∧ node = projectInode n.inode := by
  obtain ⟨stored, hok, hnode⟩ := (Result.bind_eq_ok_iff _ _ _).mp hnode
  obtain ⟨n, hfind, rfl⟩ := exists_of_getVisibleInode h.holds h.active hok
  cases hnode
  exact ⟨n, hfind, rfl⟩

omit [Sha256] [Prost] in
theorem Serving.getInode_of_find (h : Serving s ns) (hquiet : env.inodeSqlite.Quiet)
    {inode : InodeId} {n : Node} (hfind : ns.find inode = some n) :
    getInode env s inode = .ok (projectInode n.inode) := by
  rw [getInode, getVisibleInode_of_find h.holds h.active hquiet hfind]
  rfl

theorem Serving.isLoadedAt_of_childrenToLoad (h : Serving s ns) {inode : InodeId}
    (hchildren : childrenToLoad env s inode = .ok none) : ns.IsLoadedAt inode := by
  obtain ⟨stored, hok, hchildren⟩ := (Result.bind_eq_ok_iff _ _ _).mp hchildren
  obtain ⟨n, hfind, rfl⟩ := exists_of_getVisibleInode h.holds h.active hok
  obtain ⟨hn, hid⟩ := (ns.find_eq_some_iff inode n).mp hfind
  by_cases hkind : n.inode.kind = .directory
  · by_cases hloaded : n.inode.directoryLoaded = some true
    · exact ⟨n, hn, hid, hkind, (inode_directoryLoaded_eq_iff n hkind).mp hloaded⟩
    · rw [if_neg (not_not.mpr hkind), if_neg hloaded] at hchildren
      obtain ⟨digest, hcontent⟩ := content_of_kind hkind
      rw [inode_directoryRemoteDigest hcontent] at hchildren
      obtain ⟨fetched, -, hfetched⟩ := (Result.bind_eq_ok_iff _ _ _).mp hchildren
      cases hfetched
  · rw [if_pos hkind] at hchildren
    cases hchildren

theorem Serving.childrenToLoad_of_isLoadedAt (h : Serving s ns)
    (hquiet : env.inodeSqlite.Quiet) {inode : InodeId} (hloaded : ns.IsLoadedAt inode) :
    childrenToLoad env s inode = .ok none := by
  obtain ⟨p, hp, hid, hkind, hloaded⟩ := hloaded
  have hfind : ns.find inode = some p := (ns.find_eq_some_iff inode p).mpr ⟨hp, hid⟩
  have hdirectory : ¬ p.inode.kind ≠ .directory := not_not.mpr hkind
  rw [childrenToLoad, getVisibleInode_of_find h.holds h.active hquiet hfind, Result.ok_bind,
    if_neg hdirectory, if_pos ((inode_directoryLoaded_eq_iff p hkind).mpr hloaded)]

/-- A load extends the namespace, and a load that succeeds leaves a loaded directory. -/
theorem Serving.ensureDirectoryLoaded (h : Serving s ns) (env : Surroundings)
    (inode : InodeId) :
    ∃ ns', Serving (ensureDirectoryLoaded env s inode).2 ns' ∧ ns.Extends ns' ∧
      ((ensureDirectoryLoaded env s inode).1 = .ok () → ns'.IsLoadedAt inode) := by
  rw [Session.ensureDirectoryLoaded]
  cases hchildren : childrenToLoad env s inode with
  | error e =>
      refine ⟨ns, h, .refl ns, ?_⟩
      intro hok
      cases hok
  | ok fetched =>
      cases fetched with
      | none => exact ⟨ns, h, .refl ns, fun _ => h.isLoadedAt_of_childrenToLoad hchildren⟩
      | some fetched =>
          obtain ⟨children, downloaded⟩ := fetched
          dsimp only
          obtain ⟨e, hcall, -⟩ | ⟨-, hloaded, hcall⟩ | ⟨hload, db, -, hcall, hholds, hmetadata⟩ :=
            getOrCreateRemoteDirChildren_cases h.holds env.loadSqlite inode children
          · rw [hcall]
            refine ⟨ns, h, .refl ns, ?_⟩
            intro hok
            cases hok
          · rw [hcall]
            exact ⟨ns, ⟨h.holds, h.active⟩, .refl ns, fun _ => hloaded⟩
          · rw [hcall]
            obtain ⟨p, hp, hid, hkind, -⟩ := hload.directory
            obtain ⟨row, metadata, hrow, hvalid⟩ := h.active
            refine ⟨_, ⟨hholds, row, metadata, hmetadata.trans hrow, hvalid⟩,
              Namespace.load_extends hload, fun _ => ⟨p.markLoaded inode,
                (Namespace.mem_loadNodes_iff _).mpr (.inl ⟨p, hp, rfl⟩), hid, hkind, ?_⟩⟩
            simp [Node.markLoaded, hid]

/-- What one operation preserves. -/
theorem Serving.after (h : Serving s ns) (op : Operation) :
    ∃ ns', Serving (s.after op) ns' ∧ ns.Extends ns' := by
  cases op with
  | getInode env inode => exact ⟨ns, h, .refl ns⟩
  | lookupChild env parent name =>
      rw [Session.after, lookupChild_snd]
      obtain ⟨ns', h', hextends, -⟩ := h.ensureDirectoryLoaded env parent
      exact ⟨ns', h', hextends⟩
  | listDirectory env inode =>
      rw [Session.after, listDirectory_snd]
      obtain ⟨ns', h', hextends, -⟩ := h.ensureDirectoryLoaded env inode
      exact ⟨ns', h', hextends⟩
  | readRange env inode offset size =>
      have hstore : (s.after (.readRange env inode offset size)).store = s.store :=
        readRange_store env s inode offset size
      exact ⟨ns, ⟨hstore ▸ h.holds, hstore ▸ h.active⟩, .refl ns⟩

theorem Serving.foldl_after (operations : List Operation) :
    ∀ {s : Session} {ns : Namespace}, Serving s ns →
      ∃ ns', Serving (operations.foldl Session.after s) ns' ∧ ns.Extends ns' := by
  induction operations with
  | nil =>
      intro s ns h
      exact ⟨ns, h, .refl ns⟩
  | cons op operations ih =>
      intro s ns h
      obtain ⟨ms, hms, hextends⟩ := h.after op
      obtain ⟨ns', h', hextends'⟩ := ih hms
      exact ⟨ns', h', hextends.trans hextends'⟩

theorem Serving.listDirectory_eq_ok (h : Serving s ns) {inode : InodeId}
    {children : List Inode} {s' : Session}
    (hlist : listDirectory env s inode = (.ok children, s')) :
    ∃ ns', Serving s' ns' ∧ ns.Extends ns' ∧ ns'.IsLoadedAt inode ∧
      children = ns'.entries inode := by
  obtain ⟨ns', h', hextends, hloaded⟩ := h.ensureDirectoryLoaded env inode
  rw [listDirectory] at hlist
  split at hlist
  · cases hlist
  · next t hload =>
      rw [hload] at h' hloaded
      obtain ⟨hread, rfl⟩ := Prod.mk.inj hlist
      refine ⟨ns', h', hextends, hloaded rfl, ?_⟩
      rw [readChildren] at hread
      obtain hchildren | ⟨e, herror, -⟩ :=
        getDirectoryChildren_of_active h'.holds h'.active env.readSqlite inode
      · rw [hchildren, Result.ok_bind, visible_children] at hread
        cases hread
        rw [List.map_map]
        rfl
      · rw [herror] at hread
        cases hread

theorem Serving.listDirectory_of_isLoadedAt (h : Serving s ns)
    (hinode : env.inodeSqlite.Quiet) (hread : env.readSqlite.Quiet) {inode : InodeId}
    (hloaded : ns.IsLoadedAt inode) :
    listDirectory env s inode = (.ok (ns.entries inode), s) := by
  have hnone := h.childrenToLoad_of_isLoadedAt hinode hloaded
  rw [listDirectory, Session.ensureDirectoryLoaded, hnone]
  obtain hchildren | ⟨e, -, -, hloud⟩ :=
    getDirectoryChildren_of_active h.holds h.active env.readSqlite inode
  · simp only [readChildren, hchildren, Result.ok_bind, visible_children]
    rw [List.map_map]
    rfl
  · exact absurd hread hloud

end Serving

end Session

end RemoteFs
