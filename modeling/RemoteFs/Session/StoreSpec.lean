import RemoteFs.Library.Transition
import RemoteFs.Session.Namespace

/-!
# The store refines the namespace

`Database.Holds` relates the tables to a namespace. Reads of a database that
holds a namespace are reads of the namespace, or fail in SQLite; the one
operation that writes inodes either leaves the tables alone or loads a directory
of the namespace.
-/

namespace RemoteFs

namespace Session

open RemoteFs.Tree (NodeKind ValidName)
open SortBy (sortBy)

def Database.HoldsNodes (db : Database) (nodes : List Node) : Prop :=
  db.inodes = nodes.map Node.row

/-- The metadata row is valid and names the root of the namespace. -/
def Database.HasSession [Uuid] (db : Database) (rootDigest : Digest) : Prop :=
  ∃ row metadata, db.metadata = some row ∧ validateSession row = .ok metadata ∧
    metadata.rootDigest = rootDigest

structure Database.Holds [Uuid] (db : Database) (ns : Namespace) : Prop where
  nodes : db.HoldsNodes ns.nodes
  sequence : db.sequence = ns.last.value
  session : db.HasSession ns.rootDigest

/-! ### Reads -/

def Sqlite.Quiet (sqlite : Sqlite) : Prop :=
  ∀ statement, sqlite statement = none

def SqliteFailure (sqlite : Sqlite) (e : SessionError) : Prop :=
  e.FromSqlite ∧ ¬ sqlite.Quiet

theorem execute_cases (sqlite : Sqlite) (path : PathBuf) (statement : Statement)
    (operation : String) :
    execute sqlite path statement operation = .ok () ∨
      ∃ e, execute sqlite path statement operation = .error e ∧ SqliteFailure sqlite e := by
  rw [execute]
  cases hstatement : sqlite statement with
  | none => exact .inl rfl
  | some source =>
      refine .inr ⟨_, rfl, ⟨_, _, _, rfl⟩, fun hquiet => ?_⟩
      rw [hquiet statement] at hstatement
      cases hstatement

theorem transposed_validateInodeRow (o : Option Node) (h : ∀ n ∈ o, n.Valid) :
    transposed validateInodeRow (o.map Node.row) = .ok (o.map Node.inode) := by
  cases o with
  | none => rfl
  | some n =>
      rw [Option.map_some, transposed, validateInodeRow_row (h n rfl)]
      rfl

theorem row_parentId_eq_iff (n : Node) (parent : InodeId) :
    n.row.parentId = some parent.sqlite ↔ n.parent = some parent := by
  change n.parent.map InodeId.sqlite = some parent.sqlite ↔ n.parent = some parent
  rw [Option.map_eq_some_iff]
  simp only [InodeId.sqlite_inj, exists_eq_right]

section Reads

variable [Uuid] {db : Database} {ns : Namespace} (h : db.HoldsNodes ns.nodes)

include h

omit [Uuid] in
theorem find_row (inode : InodeId) :
    (db.inodes.find? fun row => row.id = inode.sqlite) = (ns.find inode).map Node.row := by
  rw [h, List.find?_map, Namespace.find]
  congr 2
  funext n
  simp only [Function.comp, Node.row, InodeId.sqlite_inj]

omit [Uuid] in
theorem find_childRow (parent : InodeId) (name : String) :
    (db.inodes.find? fun row => row.parentId = some parent.sqlite ∧ row.name = name) =
      (ns.child parent name).map Node.row := by
  rw [h, List.find?_map, Namespace.child]
  congr 2
  funext n
  simp only [Function.comp, row_parentId_eq_iff]
  rfl

omit [Uuid] in
theorem childRows_eq (parent : InodeId) :
    db.childRows parent = (ns.children parent).map Node.row := by
  have hfilter : db.inodes.filter (fun row => row.parentId = some parent.sqlite) =
      (ns.nodes.filter fun n => n.parent = some parent).map Node.row := by
    rw [h, List.filter_map]
    congr 2
    funext n
    simp only [Function.comp, row_parentId_eq_iff]
  have hsort := SortBy.map_sortBy (fun n : Node => nameKey n.remote.name)
    (fun row : InodeRow => nameKey row.name) Node.row
    (ns.nodes.filter fun n => n.parent = some parent) (fun n => rfl)
  rw [Database.childRows, hfilter, Namespace.children, hsort]

omit [Uuid] in
theorem getInodeById_eq (sqlite : Sqlite) (path : PathBuf) (inode : InodeId) :
    getInodeById sqlite path db inode = (do
      execute sqlite path .getInodeById "get inode by id"
      .ok ((ns.find inode).map Node.inode)) := by
  have hvalid : ∀ n ∈ ns.find inode, n.Valid := fun n hn =>
    ns.valid n ((ns.find_eq_some_iff inode n).mp hn).1
  rw [getInodeById, find_row h, transposed_validateInodeRow _ hvalid, withContext_ok]

omit [Uuid] in
theorem lookupChildInDirInode_eq (sqlite : Sqlite) (path : PathBuf) (parent : InodeId)
    (name : String) :
    lookupChildInDirInode sqlite path db parent name = (do
      execute sqlite path .lookupChild "lookup child by name in dir inode"
      .ok ((ns.child parent name).map Node.inode)) := by
  have hvalid : ∀ n ∈ ns.child parent name, n.Valid := fun n hn =>
    ns.valid n (List.mem_of_find?_eq_some hn)
  rw [lookupChildInDirInode, find_childRow h, transposed_validateInodeRow _ hvalid,
    withContext_ok]

omit [Uuid] in
theorem getDirectoryChildrenOn_eq (sqlite : Sqlite) (path : PathBuf) (afterCreation : Bool)
    (parent : InodeId) :
    getDirectoryChildrenOn sqlite path db afterCreation parent = (do
      execute sqlite path (.prepareChildren afterCreation) "prepare children"
      execute sqlite path (.listChildren afterCreation) "list children"
      execute sqlite path (.decodeChild afterCreation) "decode child"
      .ok ((ns.children parent).map Node.inode)) := by
  have hrows : ((ns.children parent).map Node.row).mapM validateInodeRow =
      .ok ((ns.children parent).map Node.inode) := by
    rw [Result.mapM_eq_ok_iff, List.forall₂_map_left_iff, List.forall₂_map_right_iff,
      List.forall₂_same]
    intro n hn
    exact validateInodeRow_row (ns.valid n ((ns.mem_children_iff parent n).mp hn).1)
  rw [getDirectoryChildrenOn, childRows_eq h, hrows, withContext_ok]

end Reads

/-! ### Insertions -/

/-- The tables after the row of a node was appended. -/
def Database.push (db : Database) (n : Node) : Database :=
  { db with inodes := db.inodes ++ [n.row], sequence := n.id.value }

theorem row_of_newRow (id : InodeId) (parent : Option InodeId) (inode : NewRemoteInode) :
    { newRow parent inode with id := id.value } =
      Node.row { id := id, parent := parent, remote := inode, loaded := false } := by
  cases hcontent : inode.content with
  | file digest => simp [Node.row, Node.loadedColumn, newRow, hcontent, InodeId.sqlite]
  | directory digest => simp [Node.row, Node.loadedColumn, newRow, hcontent, InodeId.sqlite]
  | symlink target => simp [Node.row, Node.loadedColumn, newRow, hcontent, InodeId.sqlite]

theorem Database.HoldsNodes.push {db : Database} {nodes : List Node} (h : db.HoldsNodes nodes)
    (n : Node) : (db.push n).HoldsNodes (nodes ++ [n]) := by
  simp only [HoldsNodes, Database.push, List.map_append, List.map_cons, List.map_nil]
  rw [h]

theorem insertRemoteInode_eq {db : Database} {nodes : List Node} (h : db.HoldsNodes nodes)
    (sqlite : Sqlite) (path : PathBuf) (index : ℕ) (parent : Option InodeId)
    (inode : NewRemoteInode) (next : InodeId) (hnext : next.value = db.sequence + 1)
    (hfresh : ∀ n ∈ nodes, n.parent = parent → n.remote.name ≠ inode.name)
    (hparent : ∀ p, parent = some p → ∃ n ∈ nodes, n.id = p) :
    insertRemoteInode sqlite path db index parent inode = (do
      execute sqlite path (.insertRemoteInode index) "insert remote inode"
      if i64Max ≤ db.sequence then
        .error (databaseError "insert remote inode" path "database or disk is full")
      else
        .ok (next, db.push
          { id := next, parent := parent, remote := inode, loaded := false })) := by
  have hunique : ¬ ((newRow parent inode).parentId.isSome ∧ ∃ other ∈ db.inodes,
      other.parentId = (newRow parent inode).parentId ∧
        other.name = (newRow parent inode).name) := by
    rintro ⟨hsome, other, hother, hcolumn, hname⟩
    rw [h] at hother
    obtain ⟨n, hn, rfl⟩ := List.mem_map.mp hother
    cases parent with
    | none => cases hsome
    | some p => exact hfresh n hn ((row_parentId_eq_iff n p).mp hcolumn) hname
  have hforeign : ¬ ∃ p ∈ (newRow parent inode).parentId,
      ∀ other ∈ db.inodes, other.id ≠ p := by
    rintro ⟨p, hp, hmissing⟩
    obtain ⟨q, hq, rfl⟩ := Option.map_eq_some_iff.mp hp
    obtain ⟨n, hn, hid⟩ := hparent q hq
    refine hmissing n.row ?_ (congrArg InodeId.sqlite hid)
    rw [h]
    exact List.mem_map_of_mem hn
  rw [insertRemoteInode, Database.insertInode, if_neg hunique, if_neg hforeign]
  congr 1
  funext _
  split
  · rfl
  · have hid : InodeId.fromSqlite (db.sequence + 1) = .ok next := by
      rw [← hnext]
      exact InodeId.fromSqlite_sqlite next
    simp only [Except.mapError, Result.ok_bind, hid]
    rw [← hnext, row_of_newRow]
    rfl

/-- The loop inserts all children, or fails in SQLite. -/
theorem insertChildren_cases (sqlite : Sqlite) (path : PathBuf) (parent : InodeId)
    (children : List NewRemoteInode) :
    ∀ (index : ℕ) (db : Database) (nodes : List Node) (last : InodeId),
      db.HoldsNodes nodes → db.sequence = last.value → (∃ n ∈ nodes, n.id = parent) →
      (∀ n ∈ nodes, n.parent = some parent →
        ∀ child ∈ children, n.remote.name ≠ child.name) →
      (children.map NewRemoteInode.name).Nodup →
      (∃ e, insertChildren sqlite path parent index db children = .error e ∧ e.FromSqlite ∧
        (sqlite.Quiet → i64Max < (lastAfter last children).value)) ∨
      ∃ db', insertChildren sqlite path parent index db children = .ok db' ∧
        db'.HoldsNodes (nodes ++ newNodes parent last children) ∧
        db'.sequence = (lastAfter last children).value ∧ db'.metadata = db.metadata := by
  induction children with
  | nil =>
      intro index db nodes last h hsequence _ _ _
      refine .inr ⟨db, rfl, ?_, hsequence, rfl⟩
      rwa [newNodes, List.append_nil]
  | cons child children ih =>
      intro index db nodes last h hsequence hparent hfresh hnodup
      rw [List.map_cons, List.nodup_cons] at hnodup
      have hnext : last.succ.value = db.sequence + 1 := by rw [hsequence]; rfl
      have hinsert := insertRemoteInode_eq h sqlite path index (some parent) child last.succ
        hnext (fun n hn hp => hfresh n hn hp child (List.mem_cons_self ..))
        (fun p hp => Option.some.inj hp ▸ hparent)
      rw [insertChildren, hinsert]
      obtain hok | ⟨e, herror, hsqlite, hloud⟩ :=
        execute_cases sqlite path (.insertRemoteInode index) "insert remote inode"
      · rw [hok, Result.ok_bind]
        split
        · next hfull =>
            refine .inl ⟨_, rfl, ⟨_, _, _, rfl⟩, fun _ => ?_⟩
            have hle := le_lastAfter children last.succ
            rw [lastAfter]
            omega
        · rw [withContext_ok, Result.ok_bind, lastAfter, newNodes]
          have hrest := ih (index + 1)
            (db.push { id := last.succ, parent := some parent, remote := child,
                       loaded := false }) _ last.succ (h.push _) rfl ?_ ?_ hnodup.2
          · rwa [List.append_assoc, List.singleton_append] at hrest
          · obtain ⟨n, hn, hid⟩ := hparent
            exact ⟨n, List.mem_append_left _ hn, hid⟩
          · intro n hn hp other hother
            obtain hn | hn := List.mem_append.mp hn
            · exact hfresh n hn hp other (List.mem_cons_of_mem _ hother)
            · rw [List.mem_singleton.mp hn]
              intro heq
              exact hnodup.1 (List.mem_map.mpr ⟨other, hother, heq.symm⟩)
      · rw [herror]
        exact .inl ⟨_, rfl, hsqlite.context _, fun hquiet => absurd hquiet hloud⟩

/-! ### Loading a directory -/

theorem row_markLoaded (parent : InodeId) (n : Node)
    (h : n.id = parent → n.remote.content.kind = .directory) :
    (if n.row.id = parent.sqlite then { n.row with directoryLoaded := some 1 } else n.row) =
      (n.markLoaded parent).row := by
  have hcolumn : n.row.id = parent.sqlite ↔ n.id = parent := InodeId.sqlite_inj
  by_cases hid : n.id = parent
  · rw [if_pos (hcolumn.mpr hid)]
    cases hcontent : n.remote.content with
    | directory digest =>
        simp [Node.row, Node.loadedColumn, newRow, hcontent, Node.markLoaded, hid]
    | file digest =>
        have hkind := h hid
        rw [hcontent] at hkind
        cases hkind
    | symlink target =>
        have hkind := h hid
        rw [hcontent] at hkind
        cases hkind
  · rw [if_neg fun heq => hid (hcolumn.mp heq)]
    simp [Node.row, Node.loadedColumn, Node.markLoaded, hid]

theorem Database.HoldsNodes.markDirectoryLoaded {db : Database} {nodes : List Node}
    {parent : InodeId} (h : db.HoldsNodes nodes)
    (hkind : ∀ n ∈ nodes, n.id = parent → n.remote.content.kind = .directory) :
    (db.markDirectoryLoaded parent.sqlite).HoldsNodes (nodes.map (Node.markLoaded parent)) := by
  simp only [HoldsNodes, Database.markDirectoryLoaded]
  rw [h, List.map_map, List.map_map]
  refine List.map_congr_left ?_
  intro n hn
  exact row_markLoaded parent n (hkind n hn)

theorem map_markLoaded_newNodes (parent last : InodeId) (children : List NewRemoteInode)
    (h : parent.value ≤ last.value) :
    (newNodes parent last children).map (Node.markLoaded parent) =
      newNodes parent last children := by
  refine (List.map_congr_left ?_).trans (List.map_id _)
  intro n hn
  have hnew := newNode_of_mem children last hn
  have hne : n.id ≠ parent := by
    intro heq
    have hlt := hnew.lt_id
    rw [heq] at hlt
    omega
  simp [Node.markLoaded, hne]

def Database.Active [Uuid] (db : Database) : Prop :=
  ∃ row metadata, db.metadata = some row ∧ validateSession row = .ok metadata ∧
    metadata.state = .active

section Load

variable [Uuid] {db : Database} {ns : Namespace}

theorem readStoredSession_eq {rootDigest : Digest} (h : db.HasSession rootDigest)
    (sqlite : Sqlite) (path : PathBuf) :
    ∃ metadata, metadata.rootDigest = rootDigest ∧ (metadata.state = .active → db.Active) ∧
      (db.Active → metadata.state = .active) ∧
      readStoredSession sqlite path db = (do
        execute sqlite path .readSessionMetadata "read session metadata"
        .ok metadata) := by
  obtain ⟨row, metadata, hrow, hvalid, hroot⟩ := h
  refine ⟨metadata, hroot, fun hactive => ⟨row, metadata, hrow, hvalid, hactive⟩, ?_, ?_⟩
  · rintro ⟨row', metadata', hrow', hvalid', hactive⟩
    rw [hrow, Option.some.injEq] at hrow'
    rw [← hrow', hvalid, Except.ok.injEq] at hvalid'
    rwa [hvalid']
  · simp only [readStoredSession, hrow, hvalid]

/-- The lifecycle check passes, fails in SQLite, or reports a session that is not
active. -/
theorem ensureActive_cases {rootDigest : Digest} (h : db.HasSession rootDigest)
    (sqlite : Sqlite) (path : PathBuf) :
    (ensureActive sqlite path db = .ok () ∧ db.Active) ∨
      (∃ e, ensureActive sqlite path db = .error e ∧ SqliteFailure sqlite e) ∨
      ∃ reason, ensureActive sqlite path db = .error (failedPrecondition reason) ∧
        ¬ db.Active := by
  obtain ⟨metadata, -, hactive, hstate, hread⟩ := readStoredSession_eq h sqlite path
  rw [ensureActive, hread]
  obtain hok | ⟨e, herror, hsqlite, hloud⟩ :=
    execute_cases sqlite path .readSessionMetadata "read session metadata"
  · rw [hok, Result.ok_bind, withContext_ok, Result.ok_bind]
    by_cases hmeta : metadata.state = .active
    · rw [if_neg (not_not.mpr hmeta)]
      exact .inl ⟨rfl, hactive hmeta⟩
    · rw [if_pos hmeta]
      exact .inr (.inr ⟨_, rfl, fun h => hmeta (hstate h)⟩)
  · rw [herror]
    exact .inr (.inl ⟨_, rfl, hsqlite.context _, hloud⟩)

omit [Uuid] in
theorem getInodeById_cases (h : db.HoldsNodes ns.nodes) (sqlite : Sqlite) (path : PathBuf)
    (inode : InodeId) :
    getInodeById sqlite path db inode = .ok ((ns.find inode).map Node.inode) ∨
      ∃ e, getInodeById sqlite path db inode = .error e ∧ SqliteFailure sqlite e := by
  rw [getInodeById_eq h]
  obtain hok | ⟨e, herror, hfailure⟩ :=
    execute_cases sqlite path .getInodeById "get inode by id"
  · rw [hok]
    exact .inl rfl
  · rw [herror]
    exact .inr ⟨e, rfl, hfailure⟩

omit [Uuid] in
theorem lookupChildInDirInode_cases (h : db.HoldsNodes ns.nodes) (sqlite : Sqlite)
    (path : PathBuf) (parent : InodeId) (name : String) :
    lookupChildInDirInode sqlite path db parent name =
        .ok ((ns.child parent name).map Node.inode) ∨
      ∃ e, lookupChildInDirInode sqlite path db parent name = .error e ∧
        SqliteFailure sqlite e := by
  rw [lookupChildInDirInode_eq h]
  obtain hok | ⟨e, herror, hfailure⟩ :=
    execute_cases sqlite path .lookupChild "lookup child by name in dir inode"
  · rw [hok]
    exact .inl rfl
  · rw [herror]
    exact .inr ⟨e, rfl, hfailure⟩

omit [Uuid] in
theorem getDirectoryChildrenOn_cases (h : db.HoldsNodes ns.nodes) (sqlite : Sqlite)
    (path : PathBuf) (afterCreation : Bool) (parent : InodeId) :
    getDirectoryChildrenOn sqlite path db afterCreation parent =
        .ok ((ns.children parent).map Node.inode) ∨
      ∃ e, getDirectoryChildrenOn sqlite path db afterCreation parent = .error e ∧
        SqliteFailure sqlite e := by
  rw [getDirectoryChildrenOn_eq h]
  obtain hprepare | ⟨e, herror, hfailure⟩ :=
    execute_cases sqlite path (.prepareChildren afterCreation) "prepare children"
  · rw [hprepare, Result.ok_bind]
    obtain hlist | ⟨e, herror, hfailure⟩ :=
      execute_cases sqlite path (.listChildren afterCreation) "list children"
    · rw [hlist, Result.ok_bind]
      obtain hdecode | ⟨e, herror, hfailure⟩ :=
        execute_cases sqlite path (.decodeChild afterCreation) "decode child"
      · rw [hdecode]
        exact .inl rfl
      · rw [herror]
        exact .inr ⟨e, rfl, hfailure⟩
    · rw [herror]
      exact .inr ⟨e, rfl, hfailure⟩
  · rw [herror]
    exact .inr ⟨e, rfl, hfailure⟩

theorem holds_load {parent : InodeId} {children : List NewRemoteInode} {db' : Database}
    (h : db.Holds ns) (hload : ns.Loadable parent children)
    (hnodes : db'.HoldsNodes (ns.nodes ++ newNodes parent ns.last children))
    (hsequence : db'.sequence = (lastAfter ns.last children).value)
    (hmetadata : db'.metadata = db.metadata) :
    (db'.markDirectoryLoaded parent.sqlite).Holds (ns.load parent children hload) := by
  obtain ⟨p, hp, hid, hkind, -⟩ := hload.directory
  have hle : parent.value ≤ ns.last.value := hid ▸ ns.ids_le p hp
  have hdirectory : ∀ n ∈ ns.nodes ++ newNodes parent ns.last children, n.id = parent →
      n.remote.content.kind = .directory := by
    intro n hn hn'
    obtain hn | hn := List.mem_append.mp hn
    · rwa [ns.eq_of_id_eq hn hp (hn'.trans hid.symm)]
    · have hlt := (newNode_of_mem children ns.last hn).lt_id
      rw [hn'] at hlt
      omega
  have hmarked := hnodes.markDirectoryLoaded hdirectory
  rw [List.map_append, map_markLoaded_newNodes parent ns.last children hle] at hmarked
  refine ⟨hmarked, hsequence, ?_⟩
  obtain ⟨row, metadata, hrow, hvalid⟩ := h.session
  exact ⟨row, metadata, hmetadata.trans hrow, hvalid⟩

theorem createRemoteDirChildren_cases {parent : InodeId} {children : List NewRemoteInode}
    (h : db.Holds ns) (hload : ns.Loadable parent children) (sqlite : Sqlite) (path : PathBuf) :
    (∃ e, createRemoteDirChildren sqlite path db parent children = .error e ∧ e.FromSqlite ∧
        (sqlite.Quiet → i64Max < (lastAfter ns.last children).value)) ∨
      ∃ db', createRemoteDirChildren sqlite path db parent children =
          .ok (((ns.load parent children hload).children parent).map Node.inode, db') ∧
        db'.Holds (ns.load parent children hload) ∧ db'.metadata = db.metadata := by
  have hvalid := (validateRemoteChildren_eq_ok_iff children).mpr hload.children_valid
  obtain ⟨p, hp, hid, -, -⟩ := hload.directory
  have hinsert := insertChildren_cases sqlite path parent children 0 db ns.nodes ns.last
    h.nodes h.sequence ⟨p, hp, hid⟩ (fun n hn heq => absurd heq (hload.parent_ne hn))
    hload.children_valid.names_nodup
  rw [createRemoteDirChildren, hvalid, withContext_ok, Result.ok_bind]
  obtain ⟨e, herror, hsqlite, hfull⟩ | ⟨db', hok, hnodes, hsequence, hmetadata⟩ := hinsert
  · rw [herror]
    exact .inl ⟨e, rfl, hsqlite, hfull⟩
  · rw [hok, Result.ok_bind]
    have hholds := holds_load h hload hnodes hsequence hmetadata
    obtain hmark | ⟨e, herror, hsqlite, hloud⟩ :=
      execute_cases sqlite path .markDirectoryLoaded "mark directory loaded"
    · rw [hmark, Result.ok_bind]
      dsimp only
      obtain hread | ⟨e, herror, hsqlite, hloud⟩ :=
        getDirectoryChildrenOn_cases hholds.nodes sqlite path true parent
      · rw [hread, withContext_ok]
        exact .inr ⟨db'.markDirectoryLoaded parent.sqlite, rfl, hholds, hmetadata⟩
      · rw [herror]
        exact .inl ⟨_, rfl, hsqlite.context _, fun hquiet => absurd hquiet hloud⟩
    · rw [herror]
      exact .inl ⟨_, rfl, hsqlite, fun hquiet => absurd hquiet hloud⟩

inductive CreateError (db : Database) (ns : Namespace) (sqlite : Sqlite) (parent : InodeId)
    (children : List NewRemoteInode) (e : SessionError) : Prop
  | sqlite (h : e.FromSqlite)
      (hfull : sqlite.Quiet → i64Max < (lastAfter ns.last children).value)
  | inactive (h : ¬ db.Active) (reason : String)
      (he : e.root = failedPrecondition reason)
  | missing (h : ns.find parent = none)
      (he : e = internalError
        s!"can't create children because parent inode {parent.display} is missing")
  | kind (p : Node) (h : ns.find parent = some p) (hkind : p.remote.content.kind ≠ .directory)
      (reason : String) (he : e.root = notDirectory reason)
  | invalid (h : ¬ ValidChildren children) (operation reason : String)
      (he : e = .context operation (internalError reason))

omit [Uuid] in
theorem ensureInodeIsDir_inode (n : Node) :
    ensureInodeIsDir n.inode = .ok () ∧ n.remote.content.kind = .directory ∨
      (∃ reason, ensureInodeIsDir n.inode = .error (notDirectory reason)) ∧
        n.remote.content.kind ≠ .directory := by
  by_cases hkind : n.remote.content.kind = .directory
  · exact .inl ⟨if_neg (not_not.mpr hkind), hkind⟩
  · exact .inr ⟨⟨_, if_pos hkind⟩, hkind⟩

omit [Uuid] in
theorem inode_directoryLoaded_eq_iff (n : Node) (hkind : n.remote.content.kind = .directory) :
    n.inode.directoryLoaded = some true ↔ n.loaded = true := by
  cases hcontent : n.remote.content with
  | directory digest => simp [Node.inode, hcontent]
  | file digest => simp [hcontent, RemoteContent.kind] at hkind
  | symlink target => simp [hcontent, RemoteContent.kind] at hkind

/-- What the transaction of `getOrCreateRemoteDirChildren` does to a namespace. -/
theorem getOrCreateBody_cases (h : db.Holds ns) (sqlite : Sqlite) (path : PathBuf)
    (parent : InodeId) (children : List NewRemoteInode) :
    (∃ e, getOrCreateBody sqlite path db parent children = .error e ∧
        CreateError db ns sqlite parent children e) ∨
      (db.Active ∧ (∃ p ∈ ns.nodes, p.id = parent ∧ p.IsLoaded) ∧
        getOrCreateBody sqlite path db parent children =
          .ok ((ns.children parent).map Node.inode, db)) ∨
      ∃ hload : ns.Loadable parent children, ∃ db', db.Active ∧
        getOrCreateBody sqlite path db parent children =
          .ok (((ns.load parent children hload).children parent).map Node.inode, db') ∧
        db'.Holds (ns.load parent children hload) ∧ db'.metadata = db.metadata := by
  rw [getOrCreateBody]
  obtain ⟨hok, hactive⟩ | ⟨e, herror, hsqlite, hloud⟩ | ⟨reason, herror, hinactive⟩ :=
    ensureActive_cases h.session sqlite path
  · rw [hok, withContext_ok, Result.ok_bind]
    obtain hfound | ⟨e, herror, hsqlite, hloud⟩ := getInodeById_cases h.nodes sqlite path parent
    · rw [hfound, withContext_ok, Result.ok_bind]
      cases hfind : ns.find parent with
      | none => exact .inl ⟨_, rfl, .missing hfind rfl⟩
      | some p =>
          obtain ⟨hp, hid⟩ := (ns.find_eq_some_iff parent p).mp hfind
          simp only [Option.map_some]
          obtain ⟨hdir, hkind⟩ | ⟨⟨reason, hnotDir⟩, hkind⟩ := ensureInodeIsDir_inode p
          · rw [hdir, withContext_ok, Result.ok_bind]
            obtain hread | ⟨e, herror, hsqlite, hloud⟩ :=
              getDirectoryChildrenOn_cases h.nodes sqlite path false parent
            · rw [hread, withContext_ok, Result.ok_bind]
              by_cases hloaded : p.loaded = true
              · rw [if_pos ((inode_directoryLoaded_eq_iff p hkind).mpr hloaded)]
                exact .inr (.inl ⟨hactive, ⟨p, hp, hid, hkind, hloaded⟩, rfl⟩)
              · rw [if_neg fun heq =>
                  hloaded ((inode_directoryLoaded_eq_iff p hkind).mp heq)]
                have hunloaded : p.loaded = false := by simpa using hloaded
                have hempty : ns.children parent = [] := hid ▸ ns.children_eq_nil hp hunloaded
                rw [hempty, List.map_nil, if_neg (not_not.mpr rfl)]
                by_cases hvalid : ValidChildren children
                · have hload : ns.Loadable parent children :=
                    ⟨⟨p, hp, hid, hkind, hunloaded⟩, hvalid⟩
                  obtain ⟨e, herror, hsqlite, hfull⟩ | ⟨db', hok, hholds, hmetadata⟩ :=
                    createRemoteDirChildren_cases h hload sqlite path
                  · exact .inl ⟨e, herror, .sqlite hsqlite hfull⟩
                  · exact .inr (.inr ⟨hload, db', hactive, hok, hholds, hmetadata⟩)
                · cases hcheck : validateRemoteChildren children with
                  | ok =>
                      exact absurd ((validateRemoteChildren_eq_ok_iff children).mp hcheck) hvalid
                  | error source =>
                      obtain ⟨reason, rfl⟩ := validateRemoteChildren_error hcheck
                      rw [createRemoteDirChildren, hcheck]
                      exact .inl ⟨_, rfl, .invalid hvalid _ reason rfl⟩
            · rw [herror]
              exact .inl ⟨_, rfl, .sqlite (hsqlite.context _) fun hquiet => absurd hquiet hloud⟩
          · rw [hnotDir]
            exact .inl ⟨_, rfl, .kind p hfind hkind reason rfl⟩
    · rw [herror]
      exact .inl ⟨_, rfl, .sqlite (hsqlite.context _) fun hquiet => absurd hquiet hloud⟩
  · rw [herror]
    exact .inl ⟨_, rfl, .sqlite (hsqlite.context _) fun hquiet => absurd hquiet hloud⟩
  · rw [herror]
    exact .inl ⟨_, rfl, .inactive hinactive reason rfl⟩

end Load

end Session

end RemoteFs
