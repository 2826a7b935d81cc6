import RemoteFs.Session.Materialize

/-!
# Inode identities are stable

Nothing is ever removed from the inode table and no row changes but in its loaded flag.
`Namespace.Extends` says so of namespaces: the nodes of one are nodes of the other up to
the flag, the children of a loaded directory stay the same, and every other node has a
later identity. Every call of the store extends its namespace, so every run does.
-/

namespace RemoteFs

namespace Session

open SortBy (sortBy)

def Node.erased (n : Node) : Node :=
  { n with loaded := false }

@[simp] theorem Node.erased_id (n : Node) : n.erased.id = n.id := rfl

@[simp] theorem Node.erased_parent (n : Node) : n.erased.parent = n.parent := rfl

@[simp] theorem Node.erased_remote (n : Node) : n.erased.remote = n.remote := rfl

@[simp] theorem Node.erased_markLoaded (parent : InodeId) (n : Node) :
    (n.markLoaded parent).erased = n.erased := rfl

theorem Node.eq_of_erased_eq {m n : Node} (h : m.erased = n.erased) :
    m.id = n.id ∧ m.parent = n.parent ∧ m.remote = n.remote := by
  cases m
  cases n
  cases h
  exact ⟨rfl, rfl, rfl⟩

namespace Namespace

/-- One namespace is what another becomes. -/
structure Extends (ns ns' : Namespace) : Prop where
  rootDigest : ns'.rootDigest = ns.rootDigest
  last : ns.last.value ≤ ns'.last.value
  old : ∀ n ∈ ns.nodes, ∃ m ∈ ns'.nodes, m.erased = n.erased ∧
    (n.loaded = true → m.loaded = true)
  new : ∀ m ∈ ns'.nodes, (∃ n ∈ ns.nodes, m.erased = n.erased) ∨ ns.last.value < m.id.value
  children : ∀ p ∈ ns.nodes, p.IsLoaded →
    (ns'.below p.id).map Node.erased = (ns.below p.id).map Node.erased

theorem Extends.refl (ns : Namespace) : ns.Extends ns where
  rootDigest := rfl
  last := le_refl _
  old n hn := ⟨n, hn, rfl, id⟩
  new m hm := .inl ⟨m, hm, rfl⟩
  children _ _ _ := rfl

theorem Extends.isLoaded {ns ns' : Namespace} (h : ns.Extends ns') {p : Node}
    (hp : p ∈ ns.nodes) (hloaded : p.IsLoaded) :
    ∃ q ∈ ns'.nodes, q.id = p.id ∧ q.IsLoaded := by
  obtain ⟨q, hq, herased, hkeeps⟩ := h.old p hp
  obtain ⟨hid, -, hremote⟩ := Node.eq_of_erased_eq herased
  refine ⟨q, hq, hid, ?_, hkeeps hloaded.2⟩
  rw [hremote]
  exact hloaded.1

theorem Extends.trans {ns ns' ns'' : Namespace} (h : ns.Extends ns') (h' : ns'.Extends ns'') :
    ns.Extends ns'' where
  rootDigest := h'.rootDigest.trans h.rootDigest
  last := h.last.trans h'.last
  old n hn := by
    obtain ⟨m, hm, herased, hkeeps⟩ := h.old n hn
    obtain ⟨l, hl, herased', hkeeps'⟩ := h'.old m hm
    exact ⟨l, hl, herased'.trans herased, fun hloaded => hkeeps' (hkeeps hloaded)⟩
  new l hl := by
    obtain ⟨m, hm, herased⟩ | hlt := h'.new l hl
    · obtain ⟨n, hn, herased'⟩ | hlt := h.new m hm
      · exact .inl ⟨n, hn, herased.trans herased'⟩
      · refine .inr ?_
        rw [(Node.eq_of_erased_eq herased).1]
        exact hlt
    · exact .inr (lt_of_le_of_lt h.last hlt)
  children p hp hloaded := by
    obtain ⟨q, hq, hid, hqloaded⟩ := h.isLoaded hp hloaded
    rw [← h.children p hp hloaded, ← hid]
    exact h'.children q hq hqloaded

theorem load_extends {ns : Namespace} {parent : InodeId} {children : List NewRemoteInode}
    (h : ns.Loadable parent children) : ns.Extends (ns.load parent children h) where
  rootDigest := rfl
  last := le_lastAfter children ns.last
  old n hn := by
    refine ⟨n.markLoaded parent, (mem_loadNodes_iff _).mpr (.inl ⟨n, hn, rfl⟩), rfl, ?_⟩
    intro hloaded
    simp [Node.markLoaded, hloaded]
  new m hm := by
    obtain ⟨n, hn, rfl⟩ | hnew := (mem_loadNodes_iff m).mp hm
    · exact .inl ⟨n, hn, rfl⟩
    · exact .inr (newNode_of_mem children ns.last hnew).lt_id
  children p hp hloaded := by
    have hne : p.id ≠ parent := by
      rintro rfl
      obtain ⟨q, hq, hid, -, hunloaded⟩ := h.directory
      rw [ns.eq_of_id_eq hq hp hid, hloaded.2] at hunloaded
      cases hunloaded
    have hnew : (newNodes parent ns.last children).filter
        (fun n => n.parent = some p.id) = [] := by
      rw [List.filter_eq_nil_iff]
      intro n hn
      rw [(newNode_of_mem children ns.last hn).parent_eq]
      simpa using hne.symm
    change ((ns.loadNodes parent children).filter _).map _ = _
    rw [loadNodes, List.filter_append, hnew, List.append_nil, List.filter_map, List.map_map]
    rfl

theorem Extends.child {ns ns' : Namespace} (h : ns.Extends ns') {parent : InodeId}
    {name : String} {n : Node} (hn : ns.child parent name = some n) :
    ∃ m, ns'.child parent name = some m ∧ m.erased = n.erased := by
  obtain ⟨hmem, hparent, hname⟩ := ns.of_child_eq_some hn
  obtain ⟨m, hm, herased, -⟩ := h.old n hmem
  obtain ⟨-, hmparent, hmremote⟩ := Node.eq_of_erased_eq herased
  refine ⟨m, ?_, herased⟩
  cases hchild : ns'.child parent name with
  | none =>
      have hnone := List.find?_eq_none.mp hchild m hm
      simp [hmparent, hmremote, hparent, hname] at hnone
  | some l =>
      obtain ⟨hl, hlparent, hlname⟩ := ns'.of_child_eq_some hchild
      rw [ns'.eq_of_place_eq hl hm (hlparent.trans (hmparent.trans hparent).symm)]
      rw [hlname, hmremote, hname]

end Namespace

/-! ### Runs of the store -/

section Runs

variable [Uuid]

theorem after_extends {store : SessionStore} {ns : Namespace} (h : store.database.Holds ns)
    (call : StoreCall) :
    ∃ ns', (store.after call).database.Holds ns' ∧ ns.Extends ns' := by
  cases call with
  | inode => exact ⟨ns, h, .refl ns⟩
  | child => exact ⟨ns, h, .refl ns⟩
  | getDirectoryChildren => exact ⟨ns, h, .refl ns⟩
  | getOrCreateRemoteDirChildren sqlite parent children =>
      rw [SessionStore.after]
      obtain ⟨e, hcall, -⟩ | ⟨-, -, hcall⟩ | ⟨hload, db, -, hcall, hloaded, -⟩ :=
        getOrCreateRemoteDirChildren_cases h sqlite parent children
      · rw [hcall]
        exact ⟨ns, h, .refl ns⟩
      · rw [hcall]
        exact ⟨ns, h, .refl ns⟩
      · rw [hcall]
        exact ⟨_, hloaded, Namespace.load_extends hload⟩
  | close sqlite clock =>
      rw [SessionStore.after]
      obtain ⟨e, hcall, -⟩ | ⟨db, hcall, hclosed, -⟩ := close_cases h sqlite clock
      · rw [hcall]
        exact ⟨ns, h, .refl ns⟩
      · rw [hcall]
        exact ⟨ns, hclosed, .refl ns⟩

end Runs

/-! ### Rows -/

/-- What a row may become: a directory that was not loaded may be marked loaded. -/
def InodeRow.Becomes (row row' : InodeRow) : Prop :=
  row' = row ∨ (row.kind = "directory" ∧ row.directoryLoaded = some 0 ∧
    row' = { row with directoryLoaded := some 1 })

/-- The inode tables at the two ends of a run. -/
structure Database.Grows (db db' : Database) : Prop where
  kept : ∀ row ∈ db.inodes, ∃ row' ∈ db'.inodes, row.Becomes row'
  ids_nodup : (db'.inodes.map InodeRow.id).Nodup
  fresh : ∀ row' ∈ db'.inodes, (∃ row ∈ db.inodes, row.Becomes row') ∨
    ∀ row ∈ db.inodes, row.id < row'.id

theorem Node.becomes_row {m n : Node} (herased : m.erased = n.erased)
    (hkeeps : n.loaded = true → m.loaded = true) : n.row.Becomes m.row := by
  obtain ⟨hid, hparent, hremote⟩ := Node.eq_of_erased_eq herased
  cases hcontent : n.remote.content with
  | file digest =>
      refine .inl ?_
      simp only [Node.row, Node.loadedColumn, hid, hparent, hremote, hcontent]
  | symlink target =>
      refine .inl ?_
      simp only [Node.row, Node.loadedColumn, hid, hparent, hremote, hcontent]
  | directory digest =>
      cases hn : n.loaded with
      | true =>
          refine .inl ?_
          simp only [Node.row, Node.loadedColumn, hid, hparent, hremote, hcontent, hn,
            hkeeps hn]
      | false =>
          cases hm : m.loaded with
          | false =>
              refine .inl ?_
              simp only [Node.row, Node.loadedColumn, hid, hparent, hremote, hcontent, hn, hm]
          | true =>
              refine .inr ⟨?_, ?_, ?_⟩
              · simp [Node.row, newRow, hcontent, RemoteContent.kind, kindText]
              · simp [Node.row, Node.loadedColumn, hcontent, hn]
              · simp [Node.row, Node.loadedColumn, hid, hparent, hremote, hcontent, hm]

section Tables

variable [Uuid]

theorem Namespace.Extends.grows {db db' : Database} {ns ns' : Namespace}
    (h : ns.Extends ns') (hdb : db.Holds ns) (hdb' : db'.Holds ns') : db.Grows db' where
  kept row hrow := by
    obtain ⟨n, hn, rfl⟩ := exists_node_of_row hdb.nodes hrow
    obtain ⟨m, hm, herased, hkeeps⟩ := h.old n hn
    exact ⟨m.row, row_mem hdb'.nodes hm, Node.becomes_row herased hkeeps⟩
  ids_nodup := by
    have hids : db'.inodes.map InodeRow.id = (ns'.nodes.map Node.id).map InodeId.sqlite := by
      rw [hdb'.nodes, List.map_map, List.map_map]
      rfl
    rw [hids]
    exact ns'.ids_nodup.map fun _ _ heq => InodeId.sqlite_inj.mp heq
  fresh row' hrow' := by
    obtain ⟨m, hm, rfl⟩ := exists_node_of_row hdb'.nodes hrow'
    obtain ⟨n, hn, herased⟩ | hlt := h.new m hm
    · obtain ⟨m', hm', herased', hkeeps⟩ := h.old n hn
      have hid : m'.id = m.id :=
        (Node.eq_of_erased_eq herased').1.trans (Node.eq_of_erased_eq herased).1.symm
      rw [ns'.eq_of_id_eq hm' hm hid] at hkeeps
      exact .inl ⟨n.row, row_mem hdb.nodes hn, Node.becomes_row herased hkeeps⟩
    · refine .inr fun row hrow => ?_
      obtain ⟨n, hn, rfl⟩ := exists_node_of_row hdb.nodes hrow
      exact lt_of_le_of_lt (ns.ids_le n hn) hlt

/-! ### Materializations of one directory -/

def StoreInode.unflagged (inode : StoreInode) : StoreInode :=
  { inode with directoryLoaded := inode.directoryLoaded.map fun _ => false }

omit [Uuid] in
theorem Node.unflagged_inode (n : Node) : n.inode.unflagged = n.erased.inode := by
  cases hcontent : n.remote.content <;>
    simp [StoreInode.unflagged, Node.inode, Node.erased, hcontent]

omit [Uuid] in
/-- The children of a loaded directory are listed in the same order under the same
identities. -/
theorem Namespace.Extends.unflagged_children {ns ns' : Namespace} (h : ns.Extends ns')
    {p : Node} (hp : p ∈ ns.nodes) (hloaded : p.IsLoaded) :
    ((ns'.children p.id).map Node.inode).map StoreInode.unflagged =
      ((ns.children p.id).map Node.inode).map StoreInode.unflagged := by
  have herased : ∀ nodes : List Node, (nodes.map Node.inode).map StoreInode.unflagged =
      (nodes.map Node.erased).map Node.inode := by
    intro nodes
    rw [List.map_map, List.map_map]
    exact List.map_congr_left fun n _ => n.unflagged_inode
  have hsorted : ∀ nodes : List Node,
      (sortBy (fun n => nameKey n.remote.name) nodes).map Node.erased =
        sortBy (fun n => nameKey n.remote.name) (nodes.map Node.erased) :=
    fun nodes => SortBy.map_sortBy _ _ Node.erased nodes fun _ => rfl
  rw [herased, herased, Namespace.children, Namespace.children, hsorted, hsorted]
  exact congrArg (fun nodes => (sortBy _ nodes).map Node.inode) (h.children p hp hloaded)

/-- After a materialization that succeeded the directory is loaded, and what was
returned are its children. -/
theorem loaded_of_materialized {store store' : SessionStore} {ns : Namespace}
    {sqlite : Sqlite} {parent : InodeId} {children : List NewRemoteInode}
    {stored : List StoreInode} (h : store.database.Holds ns)
    (hcall : store.getOrCreateRemoteDirChildren sqlite parent children =
      (.ok stored, store')) :
    ∃ ns' p, store'.database.Holds ns' ∧ ns.Extends ns' ∧ p ∈ ns'.nodes ∧ p.id = parent ∧
      p.IsLoaded ∧ stored = (ns'.children parent).map Node.inode := by
  obtain ⟨e, herror, -⟩ | ⟨-, ⟨p, hp, hid, hloaded⟩, hsame⟩ | ⟨hload, db, -, hcreated, hholds, -⟩ :=
    getOrCreateRemoteDirChildren_cases h sqlite parent children
  · rw [herror] at hcall
    cases hcall
  · rw [hsame] at hcall
    cases hcall
    exact ⟨ns, p, h, .refl ns, hp, hid, hloaded, rfl⟩
  · rw [hcreated] at hcall
    cases hcall
    obtain ⟨p, hp, hid, hkind, -⟩ := hload.directory
    refine ⟨_, p.markLoaded parent, hholds, Namespace.load_extends hload,
      (Namespace.mem_loadNodes_iff _).mpr (.inl ⟨p, hp, rfl⟩), hid, ⟨hkind, ?_⟩, rfl⟩
    simp [Node.markLoaded, hid]

theorem materialize_loaded {store : SessionStore} {ns : Namespace} {p : Node}
    (h : store.database.Holds ns) (hp : p ∈ ns.nodes) (hloaded : p.IsLoaded)
    (sqlite : Sqlite) (children : List NewRemoteInode) :
    (store.getOrCreateRemoteDirChildren sqlite p.id children).2 = store ∧
      ∀ stored, (store.getOrCreateRemoteDirChildren sqlite p.id children).1 = .ok stored →
        stored = (ns.children p.id).map Node.inode := by
  obtain ⟨e, herror, -⟩ | ⟨-, -, hsame⟩ | ⟨hload, -⟩ :=
    getOrCreateRemoteDirChildren_cases h sqlite p.id children
  · rw [herror]
    exact ⟨rfl, fun stored hstored => nomatch hstored⟩
  · rw [hsame]
    exact ⟨rfl, fun stored hstored => (Except.ok.inj hstored).symm⟩
  · obtain ⟨q, hq, hid, -, hunloaded⟩ := hload.directory
    rw [ns.eq_of_id_eq hq hp hid, hloaded.2] at hunloaded
    cases hunloaded

end Tables

end Session

end RemoteFs
