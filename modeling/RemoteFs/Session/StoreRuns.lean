import RemoteFs.Library.Transition
import RemoteFs.Session.StoreSpec
import Mathlib.Logic.Relation

/-!
# The inode table over whole runs of the store

A new store holds the namespace with an unloaded root. Every call of the store
keeps the tables as they are, loads one directory, or closes the session; so the
tables of every reachable store hold a namespace. `NamespaceInvariant` reads the
shape of the namespace off the rows.
-/

namespace RemoteFs

namespace Session

open RemoteFs.Tree (NodeKind ValidName)

variable [Uuid]

/-! ### Transactions -/

omit [Uuid] in
/-- A transaction commits the result of its body, or changes nothing. -/
theorem SessionStore.withTransaction_cases {α : Type} (store : SessionStore) (sqlite : Sqlite)
    (operation : String) (body : Database → Except SessionError (α × Database)) :
    (∃ value db, body store.database = .ok (value, db) ∧
        store.withTransaction sqlite operation body =
          (.ok value, { store with database := db })) ∨
      (∃ e, body store.database = .error e ∧
        store.withTransaction sqlite operation body =
          (.error (.context s!"run {operation} transaction" e), store)) ∨
      ∃ e, store.withTransaction sqlite operation body = (.error e, store) ∧
        SqliteFailure sqlite e := by
  rw [withTransaction]
  obtain hbegin | ⟨e, herror, hfailure⟩ :=
    execute_cases sqlite store.databasePath .begin s!"begin {operation}"
  · rw [hbegin, Result.ok_bind]
    cases hbody : body store.database with
    | error e => exact .inr (.inl ⟨e, rfl, rfl⟩)
    | ok result =>
        obtain ⟨value, db⟩ := result
        rw [withContext_ok, Result.ok_bind]
        obtain hcommit | ⟨e, herror, hfailure⟩ :=
          execute_cases sqlite store.databasePath .commit s!"commit {operation}"
        · rw [hcommit]
          exact .inl ⟨value, db, rfl, rfl⟩
        · rw [herror]
          exact .inr (.inr ⟨e, rfl, hfailure⟩)
  · rw [herror]
    exact .inr (.inr ⟨e, rfl, hfailure⟩)

/-! ### The metadata row -/

omit [Uuid] in
theorem nowSeconds_eq_ok_iff (clock seconds : ℤ) :
    nowSeconds clock = .ok seconds ↔ (0 ≤ clock ∧ clock ≤ i64Max) ∧ seconds = clock := by
  rw [nowSeconds]
  split
  · next h =>
      simp only [reduceCtorEq, false_iff]
      omega
  · next h =>
      rw [Except.ok.injEq]
      constructor
      · intro heq
        exact ⟨by omega, heq.symm⟩
      · exact fun heq => heq.2.symm

omit [Uuid] in
theorem validateDaemonPid_toNat (daemonPid : UInt32) :
    validateDaemonPid (daemonPid.toNat : ℤ) = .ok daemonPid := by
  rw [validateDaemonPid, u32TryFrom_toNat]

theorem validateSession_new (sessionId : String) (daemonPid : UInt32) (rootDigest : Digest)
    (mountpoint : String) (now : ℤ) (hid : Uuid.parses sessionId = true)
    (hpid : daemonPid ≠ 0) (hnow : 0 ≤ now) :
    validateSession
        { singleton := 1
          sessionId := sessionId
          daemonPid := daemonPid.toNat
          lifecycle := "active"
          rootDigestHash := rootDigest.hash
          rootDigestSize := rootDigest.sizeBytes
          mountpoint := mountpoint
          createdAtSeconds := now
          closedAtSeconds := none
          logLevel := "info"
          logFormat := "text" } =
      .ok
        { daemonPid := daemonPid
          state := .active
          rootDigest := rootDigest
          mountpoint := PathBuf.ofText mountpoint } := by
  have hpos : ¬ (daemonPid.toNat : ℤ) ≤ 0 := by
    have hne : daemonPid.toNat ≠ 0 := fun h => hpid (UInt32.toNat_inj.mp h)
    omega
  have hdigest : Digest.new rootDigest.hash (Int64.ofInt rootDigest.sizeBytes) =
      .ok rootDigest := by
    rw [Int64.ofInt_eq_ofNat]
    exact rootDigest.fromReapi_toReapi
  have hlifecycle : parseLifecycle "active" = .ok .active := rfl
  have hclose : validateCloseTime .active none = .ok () := rfl
  rw [validateSession, if_neg]
  · rw [hlifecycle, Result.ok_bind, hclose, Result.ok_bind, validateDaemonPid_toNat,
      Result.ok_bind, hdigest]
    rfl
  · simp only [hid, not_true_eq_false, hpos, false_or, ne_eq, true_or, or_false]
    simp only [not_or, not_lt]
    exact ⟨hnow, by decide⟩

theorem validateSession_closedRow {row : SessionMetadataRow} {metadata : SessionMetadata}
    {seconds : ℤ} (h : validateSession row = .ok metadata) (hseconds : 0 ≤ seconds) :
    validateSession (SessionStore.closedRow row seconds) =
      .ok { metadata with state := .closed } := by
  rw [validateSession] at h
  split at h
  · cases h
  · next hcheck =>
      rw [validateSession, if_neg (by exact hcheck)]
      obtain ⟨state, -, h⟩ := (Result.bind_eq_ok_iff _ _ _).mp h
      obtain ⟨-, h⟩ := (Result.check_bind_eq_ok_iff _ _ _).mp h
      have hclose : validateCloseTime .closed (some seconds) = .ok () := by
        simp [validateCloseTime, hseconds]
      have hlifecycle : parseLifecycle "closed" = .ok .closed := rfl
      simp only [SessionStore.closedRow, hlifecycle, Result.ok_bind, hclose]
      obtain ⟨pid, hpid, h⟩ := (Result.bind_eq_ok_iff _ _ _).mp h
      obtain ⟨digest, hdigest, h⟩ := (Result.bind_eq_ok_iff _ _ _).mp h
      cases h
      rw [hpid, Result.ok_bind, hdigest]
      rfl

/-! ### Calls -/

omit [Uuid] in
theorem insertRootInode_eq_ok {sqlite : Sqlite} {path : PathBuf} {db db' : Database}
    {rootDigest : Digest} (hrows : db.inodes = []) (hsequence : db.sequence = 0)
    (h : SessionStore.insertRootInode sqlite path db rootDigest = .ok db') :
    db' = db.push (rootNode rootDigest false) := by
  have hnodes : db.HoldsNodes [] := hrows
  have hinsert := insertRemoteInode_eq hnodes sqlite path 0 none (SessionStore.newRoot rootDigest)
    InodeId.root (by rw [hsequence]; rfl) (by simp) (by simp)
  rw [SessionStore.insertRootInode, hinsert] at h
  obtain ⟨⟨id, inserted⟩, hrow, h⟩ := (Result.bind_eq_ok_iff _ _ _).mp h
  obtain ⟨-, hrow⟩ := (Result.check_bind_eq_ok_iff _ _ _).mp hrow
  split at hrow
  · cases hrow
  · cases hrow
    dsimp only at h
    rw [if_neg (not_not.mpr rfl)] at h
    cases h
    rfl

theorem initializeDatabase_eq_ok {store store' : SessionStore} {sqlite : Sqlite}
    {sessionId : String} {daemonPid : UInt32} {rootDigest : Digest} {mountpoint : PathBuf}
    {clock : ℤ} (hempty : store.database = .empty)
    (h : store.initializeDatabase sqlite sessionId daemonPid rootDigest mountpoint clock =
      (.ok (), store')) :
    store'.databasePath = store.databasePath ∧
      store'.database.Holds (Namespace.start rootDigest) ∧ store'.database.Active := by
  rw [SessionStore.initializeDatabase] at h
  split at h
  · cases h
  · next text _ =>
      split at h
      · cases h
      · next hidentity =>
          rw [not_or, not_not] at hidentity
          split at h
          · cases h
          · next now hnow =>
              obtain ⟨⟨hclock, -⟩, hseconds⟩ :=
                (nowSeconds_eq_ok_iff clock now).mp ((withContext_eq_ok_iff _ _ _).mp hnow)
              obtain ⟨value, db, hbody, hcommit⟩ | ⟨e, -, hcommit⟩ | ⟨e, hcommit, -⟩ :=
                store.withTransaction_cases sqlite "initialize database" _
              all_goals rw [hcommit] at h
              all_goals cases h
              obtain ⟨seeded, hseeded, htail⟩ := (Result.bind_eq_ok_iff _ _ _).mp hbody
              obtain ⟨rooted, hrooted, hlast⟩ := (Result.bind_eq_ok_iff _ _ _).mp htail
              rw [withContext_eq_ok_iff] at hrooted
              rw [SessionStore.insertSession, hempty] at hseeded
              obtain ⟨-, hseeded⟩ := (Result.check_bind_eq_ok_iff _ _ _).mp hseeded
              cases hseeded
              have hpush := insertRootInode_eq_ok rfl rfl hrooted
              cases hlast
              have hvalid := validateSession_new sessionId daemonPid rootDigest text now
                hidentity.1 hidentity.2 (by omega)
              rw [hpush]
              exact ⟨rfl, ⟨rfl, rfl, _, _, rfl, hvalid, rfl⟩, _, _, rfl, hvalid, rfl⟩

/-- A new store holds an unloaded root and is active. -/
theorem create_holds {sqlite : Sqlite} {databasePath : PathBuf} {sessionId : String}
    {daemonPid : UInt32} {rootDigest : Digest} {mountpoint : PathBuf} {clock : ℤ}
    {store : SessionStore}
    (h : SessionStore.create sqlite databasePath sessionId daemonPid rootDigest mountpoint
      clock = .ok store) :
    store.database.Holds (Namespace.start rootDigest) ∧ store.database.Active := by
  rw [SessionStore.create] at h
  obtain ⟨-, h⟩ := (Result.check_bind_eq_ok_iff _ _ _).mp h
  obtain ⟨-, h⟩ := (Result.check_bind_eq_ok_iff _ _ _).mp h
  dsimp only at h
  split at h
  · next created hinitialize =>
      cases h
      exact (initializeDatabase_eq_ok rfl hinitialize).2
  · cases h

inductive StoreCall where
  | inode (sqlite : Sqlite) (inode : InodeId)
  | child (sqlite : Sqlite) (parent : InodeId) (name : String)
  | getDirectoryChildren (sqlite : Sqlite) (parent : InodeId)
  | getOrCreateRemoteDirChildren (sqlite : Sqlite) (parent : InodeId)
      (children : List NewRemoteInode)
  | close (sqlite : Sqlite) (clock : ℤ)

/-- The store after a call; a read leaves it as it is. -/
def SessionStore.after (store : SessionStore) : StoreCall → SessionStore
  | .inode _ _ => store
  | .child _ _ _ => store
  | .getDirectoryChildren _ _ => store
  | .getOrCreateRemoteDirChildren sqlite parent children =>
      (store.getOrCreateRemoteDirChildren sqlite parent children).2
  | .close sqlite clock => (store.close sqlite clock).2

/-- What a materialization does to a store that holds a namespace. -/
theorem getOrCreateRemoteDirChildren_cases {store : SessionStore} {ns : Namespace}
    (h : store.database.Holds ns) (sqlite : Sqlite) (parent : InodeId)
    (children : List NewRemoteInode) :
    (∃ e, store.getOrCreateRemoteDirChildren sqlite parent children = (.error e, store) ∧
        (SqliteFailure sqlite e ∨ ∃ source,
          e = .context "run get or create directory children transaction" source ∧
          CreateError store.database ns sqlite parent children source)) ∨
      (store.database.Active ∧ (∃ p ∈ ns.nodes, p.id = parent ∧ p.IsLoaded) ∧
        store.getOrCreateRemoteDirChildren sqlite parent children =
          (.ok ((ns.children parent).map Node.inode), store)) ∨
      ∃ hload : ns.Loadable parent children, ∃ db, store.database.Active ∧
        store.getOrCreateRemoteDirChildren sqlite parent children =
          (.ok (((ns.load parent children hload).children parent).map Node.inode),
            { store with database := db }) ∧
        db.Holds (ns.load parent children hload) ∧ db.metadata = store.database.metadata := by
  rw [SessionStore.getOrCreateRemoteDirChildren]
  have hbody := getOrCreateBody_cases h sqlite store.databasePath parent children
  obtain ⟨value, db, hok, hcommit⟩ | ⟨e, herror, hcommit⟩ | ⟨e, hcommit, hfailure⟩ :=
    store.withTransaction_cases sqlite "get or create directory children" fun db =>
      getOrCreateBody sqlite store.databasePath db parent children
  · rw [hcommit]
    obtain ⟨e, herror, -⟩ | ⟨hactive, hloaded, hsame⟩ |
      ⟨hload, db', hactive, hcreated, hholds, hmetadata⟩ := hbody
    · rw [herror] at hok
      cases hok
    · rw [hsame] at hok
      cases hok
      exact .inr (.inl ⟨hactive, hloaded, rfl⟩)
    · rw [hcreated] at hok
      cases hok
      exact .inr (.inr ⟨hload, _, hactive, rfl, hholds, hmetadata⟩)
  · rw [hcommit]
    obtain ⟨e', herror', hcause⟩ | ⟨_, _, hsame⟩ | ⟨_, _, _, hcreated, _⟩ := hbody
    · rw [herror'] at herror
      cases herror
      exact .inl ⟨_, rfl, .inr ⟨_, rfl, hcause⟩⟩
    · rw [hsame] at herror
      cases herror
    · rw [hcreated] at herror
      cases herror
  · rw [hcommit]
    exact .inl ⟨_, rfl, .inl hfailure⟩

theorem closeBody_cases {db : Database} {rootDigest : Digest} (h : db.HasSession rootDigest)
    (sqlite : Sqlite) (path : PathBuf) (seconds : ℤ) :
    let body : Except SessionError (Unit × Database) := do
      withContext (ensureActive sqlite path db) "can't close already closed session"
      execute sqlite path .markSessionClosed "mark session closed"
      .ok ((), { db with
        metadata := db.metadata.map fun row => SessionStore.closedRow row seconds })
    (db.Active ∧ body = .ok ((), { db with
        metadata := db.metadata.map fun row => SessionStore.closedRow row seconds })) ∨
      ∃ e, body = .error e ∧ (sqlite.Quiet → ∃ reason, e.root = failedPrecondition reason) := by
  dsimp only
  obtain ⟨hok, hactive⟩ | ⟨e, herror, -, hloud⟩ | ⟨reason, herror, -⟩ :=
    ensureActive_cases h sqlite path
  · rw [hok, withContext_ok, Result.ok_bind]
    obtain hmark | ⟨e, herror, -, hloud⟩ :=
      execute_cases sqlite path .markSessionClosed "mark session closed"
    · rw [hmark, Result.ok_bind]
      exact .inl ⟨hactive, rfl⟩
    · rw [herror]
      exact .inr ⟨e, rfl, fun hquiet => absurd hquiet hloud⟩
  · rw [herror]
    exact .inr ⟨_, rfl, fun hquiet => absurd hquiet hloud⟩
  · rw [herror]
    exact .inr ⟨_, rfl, fun _ => ⟨reason, rfl⟩⟩

/-- Closing an active session changes the metadata row only, and fails otherwise. -/
theorem close_cases {store : SessionStore} {ns : Namespace} (h : store.database.Holds ns)
    (sqlite : Sqlite) (clock : ℤ) :
    (∃ e, store.close sqlite clock = (.error e, store) ∧
        (sqlite.Quiet → 0 ≤ clock ∧ clock ≤ i64Max →
          ∃ reason, e.root = failedPrecondition reason)) ∨
      ∃ db, store.close sqlite clock = (.ok (), { store with database := db }) ∧
        db.Holds ns ∧ db.inodes = store.database.inodes ∧ store.database.Active ∧
        db.metadata =
          store.database.metadata.map fun row => SessionStore.closedRow row clock := by
  rw [SessionStore.close]
  split
  · next error hnow =>
      refine .inl ⟨error, rfl, fun _ hclock => ?_⟩
      rw [(nowSeconds_eq_ok_iff clock clock).mpr ⟨hclock, rfl⟩] at hnow
      cases hnow
  · next seconds hnow =>
      obtain ⟨⟨hclock, -⟩, rfl⟩ :=
        (nowSeconds_eq_ok_iff clock seconds).mp ((withContext_eq_ok_iff _ _ _).mp hnow)
      have hbody := closeBody_cases h.session sqlite store.databasePath seconds
      obtain ⟨value, db, hok, hcommit⟩ | ⟨e, herror, hcommit⟩ | ⟨e, hcommit, -, hloud⟩ :=
        store.withTransaction_cases sqlite "close session" fun db => do
          withContext (ensureActive sqlite store.databasePath db)
            "can't close already closed session"
          execute sqlite store.databasePath .markSessionClosed "mark session closed"
          .ok ((), { db with
            metadata := db.metadata.map fun row => SessionStore.closedRow row seconds })
      · rw [hcommit]
        obtain ⟨hactive, hsame⟩ | ⟨e, herror, -⟩ := hbody
        · rw [hsame] at hok
          cases hok
          obtain ⟨row, metadata, hrow, hvalid, hroot⟩ := h.session
          refine .inr ⟨_, rfl, ⟨h.nodes, h.sequence, ?_⟩, rfl, hactive, rfl⟩
          refine ⟨SessionStore.closedRow row seconds, { metadata with state := .closed }, ?_,
            validateSession_closedRow hvalid hclock, hroot⟩
          simp only [hrow, Option.map_some]
        · rw [herror] at hok
          cases hok
      · rw [hcommit]
        obtain ⟨-, hsame⟩ | ⟨e', herror', hcause⟩ := hbody
        · rw [hsame] at herror
          cases herror
        · rw [herror'] at herror
          cases herror
          exact .inl ⟨_, rfl, fun hquiet _ => hcause hquiet⟩
      · rw [hcommit]
        exact .inl ⟨e, rfl, fun hquiet _ => absurd hquiet hloud⟩

/-- A store that holds a namespace of a root still does after any call. -/
def HoldsRoot (rootDigest : Digest) (store : SessionStore) : Prop :=
  ∃ ns : Namespace, ns.rootDigest = rootDigest ∧ store.database.Holds ns

theorem after_holdsRoot {rootDigest : Digest} {store : SessionStore} (call : StoreCall)
    (h : HoldsRoot rootDigest store) : HoldsRoot rootDigest (store.after call) := by
  obtain ⟨ns, hroot, hholds⟩ := h
  cases call with
  | inode => exact ⟨ns, hroot, hholds⟩
  | child => exact ⟨ns, hroot, hholds⟩
  | getDirectoryChildren => exact ⟨ns, hroot, hholds⟩
  | getOrCreateRemoteDirChildren sqlite parent children =>
      rw [SessionStore.after]
      obtain ⟨e, hcall, -⟩ | ⟨-, -, hcall⟩ | ⟨hload, db, -, hcall, hloaded, -⟩ :=
        getOrCreateRemoteDirChildren_cases hholds sqlite parent children
      · rw [hcall]
        exact ⟨ns, hroot, hholds⟩
      · rw [hcall]
        exact ⟨ns, hroot, hholds⟩
      · rw [hcall]
        exact ⟨ns.load parent children hload, hroot, hloaded⟩
  | close sqlite clock =>
      rw [SessionStore.after]
      obtain ⟨e, hcall, -⟩ | ⟨db, hcall, hclosed, -⟩ := close_cases hholds sqlite clock
      · rw [hcall]
        exact ⟨ns, hroot, hholds⟩
      · rw [hcall]
        exact ⟨ns, hroot, hclosed⟩

/-! ### The invariant, on rows -/

def Database.ParentOf (db : Database) (parent child : ℤ) : Prop :=
  ∃ row ∈ db.inodes, row.id = child ∧ row.parentId = some parent

/-- The shape of the inode table, and what the reads of it can fail with. -/
structure NamespaceInvariant (rootDigest : Digest) (store : SessionStore) : Prop where
  ids_nodup : (store.database.inodes.map InodeRow.id).Nodup
  root : ∃ row ∈ store.database.inodes, row.id = 1 ∧ row.parentId = none ∧ row.name = "" ∧
    row.kind = "directory" ∧ row.directoryRemoteDigest = some rootDigest.display
  only_root : ∀ row ∈ store.database.inodes, row.parentId = none ↔ row.id = 1
  below : ∀ row ∈ store.database.inodes, row.id ≠ 1 → ValidName row.name ∧
    ∃ parent ∈ store.database.inodes, row.parentId = some parent.id ∧
      parent.kind = "directory" ∧ parent.directoryLoaded = some 1 ∧ parent.id < row.id
  rooted : ∀ row ∈ store.database.inodes,
    Relation.ReflTransGen store.database.ParentOf 1 row.id
  names : store.database.inodes.Pairwise fun a b => (a.parentId, a.name) ≠ (b.parentId, b.name)
  unloaded : ∀ row ∈ store.database.inodes, row.kind = "directory" →
    row.directoryLoaded = some 0 → ∀ child ∈ store.database.inodes,
      child.parentId ≠ some row.id
  rows_valid : ∀ row ∈ store.database.inodes, ∃ inode, validateInodeRow row = .ok inode
  session_valid : ∃ row metadata, store.database.metadata = some row ∧
    validateSession row = .ok metadata ∧ metadata.rootDigest = rootDigest
  no_stored_children : ∀ sqlite parent children,
    (store.getOrCreateRemoteDirChildren sqlite parent children).1 ≠
      .error (.context "run get or create directory children transaction" (internalError
        s!"unloaded directory inode {InodeId.display parent} already has stored children"))
  session_read : ∀ sqlite e,
    readStoredSession sqlite store.databasePath store.database = .error e →
      SqliteFailure sqlite e
  inode_read : ∀ sqlite inode e,
    getInodeById sqlite store.databasePath store.database inode = .error e →
      SqliteFailure sqlite e
  child_read : ∀ sqlite parent name e,
    lookupChildInDirInode sqlite store.databasePath store.database parent name = .error e →
      SqliteFailure sqlite e
  children_read : ∀ sqlite after parent e,
    getDirectoryChildrenOn sqlite store.databasePath store.database after parent = .error e →
      SqliteFailure sqlite e

section Invariant

variable {db : Database} {ns : Namespace}

omit [Uuid] in
theorem row_id_eq_one_iff (n : Node) : n.row.id = 1 ↔ n.id = InodeId.root :=
  InodeId.sqlite_inj (b := InodeId.root)

omit [Uuid] in
theorem row_parentId_eq_none_iff (n : Node) : n.row.parentId = none ↔ n.parent = none :=
  Option.map_eq_none_iff

omit [Uuid] in
theorem row_kind_eq_directory_iff (n : Node) :
    n.row.kind = "directory" ↔ n.remote.content.kind = .directory := by
  change kindText n.remote.content.kind = "directory" ↔ _
  cases n.remote.content.kind <;> simp [kindText]

omit [Uuid] in
theorem row_directoryLoaded_eq (n : Node) (h : n.remote.content.kind = .directory) :
    n.row.directoryLoaded = some (if n.loaded then 1 else 0) := by
  cases hcontent : n.remote.content with
  | directory digest => simp [Node.row, Node.loadedColumn, hcontent]
  | file digest => simp [hcontent, RemoteContent.kind] at h
  | symlink target => simp [hcontent, RemoteContent.kind] at h

omit [Uuid] in
theorem exists_node_of_row (h : db.HoldsNodes ns.nodes) {row : InodeRow}
    (hrow : row ∈ db.inodes) : ∃ n ∈ ns.nodes, n.row = row := by
  rw [h] at hrow
  exact List.mem_map.mp hrow

omit [Uuid] in
theorem row_mem (h : db.HoldsNodes ns.nodes) {n : Node} (hn : n ∈ ns.nodes) :
    n.row ∈ db.inodes := by
  rw [h]
  exact List.mem_map_of_mem hn

omit [Uuid] in
theorem only_root_row (h : db.HoldsNodes ns.nodes) (row : InodeRow) (hrow : row ∈ db.inodes) :
    row.parentId = none ↔ row.id = 1 := by
  obtain ⟨n, hn, rfl⟩ := exists_node_of_row h hrow
  rw [row_parentId_eq_none_iff, row_id_eq_one_iff]
  obtain ⟨hid, hparent, -⟩ | ⟨hid, hparent, -⟩ := (ns.valid n hn).placed
  · exact ⟨fun _ => hid, fun _ => hparent⟩
  · refine ⟨fun hnone => ?_, fun heq => absurd heq hid⟩
    rw [hnone] at hparent
    cases hparent

omit [Uuid] in
theorem below_row (h : db.HoldsNodes ns.nodes) (row : InodeRow) (hrow : row ∈ db.inodes)
    (hid : row.id ≠ 1) : ValidName row.name ∧ ∃ parent ∈ db.inodes,
      row.parentId = some parent.id ∧ parent.kind = "directory" ∧
        parent.directoryLoaded = some 1 ∧ parent.id < row.id := by
  obtain ⟨n, hn, rfl⟩ := exists_node_of_row h hrow
  obtain ⟨hroot, -⟩ | ⟨-, hparent, hname⟩ := (ns.valid n hn).placed
  · exact absurd ((row_id_eq_one_iff n).mpr hroot) hid
  · obtain ⟨parent, hparent⟩ := Option.isSome_iff_exists.mp hparent
    obtain ⟨p, hp, hpid, hloaded, hlt⟩ := ns.parents n hn parent hparent
    refine ⟨hname, p.row, row_mem h hp, ?_, (row_kind_eq_directory_iff p).mpr hloaded.1, ?_,
      hlt⟩
    · exact (row_parentId_eq_iff n p.id).mpr (hpid ▸ hparent)
    · rw [row_directoryLoaded_eq p hloaded.1, hloaded.2]
      rfl

omit [Uuid] in
/-- Every row is below the root, by induction on its identity. -/
theorem rooted_row (h : db.HoldsNodes ns.nodes) :
    ∀ (bound : ℕ) (row : InodeRow), row ∈ db.inodes → row.id.toNat ≤ bound →
      Relation.ReflTransGen db.ParentOf 1 row.id := by
  intro bound
  induction bound with
  | zero =>
      intro row hrow hle
      obtain ⟨n, -, rfl⟩ := exists_node_of_row h hrow
      have hpos : 0 < n.row.id := n.id.pos
      omega
  | succ bound ih =>
      intro row hrow hle
      by_cases hid : row.id = 1
      · rw [hid]
      · obtain ⟨-, parent, hparent, hcolumn, -, -, hlt⟩ := below_row h row hrow hid
        have hpos : 0 < row.id := by
          obtain ⟨n, -, rfl⟩ := exists_node_of_row h hrow
          exact n.id.pos
        have habove := ih parent hparent (by omega)
        exact habove.tail ⟨row, hrow, rfl, hcolumn⟩

omit [Uuid] in
theorem unloaded_row (h : db.HoldsNodes ns.nodes) (row : InodeRow) (hrow : row ∈ db.inodes)
    (hkind : row.kind = "directory") (hloaded : row.directoryLoaded = some 0)
    (child : InodeRow) (hchild : child ∈ db.inodes) : child.parentId ≠ some row.id := by
  obtain ⟨p, hp, rfl⟩ := exists_node_of_row h hrow
  obtain ⟨n, hn, rfl⟩ := exists_node_of_row h hchild
  rw [row_directoryLoaded_eq p ((row_kind_eq_directory_iff p).mp hkind)] at hloaded
  intro hcolumn
  have hisLoaded := ns.isLoaded_of_parent hn hp ((row_parentId_eq_iff n p.id).mp hcolumn)
  rw [hisLoaded.2] at hloaded
  cases hloaded

theorem no_stored_children_error {store : SessionStore} (h : store.database.Holds ns)
    (sqlite : Sqlite) (parent : InodeId) (children : List NewRemoteInode) :
    (store.getOrCreateRemoteDirChildren sqlite parent children).1 ≠
      .error (.context "run get or create directory children transaction" (internalError
        s!"unloaded directory inode {parent.display} already has stored children")) := by
  obtain ⟨e, hcall, hcause⟩ | ⟨-, -, hcall⟩ | ⟨hload, db, -, hcall, -⟩ :=
    getOrCreateRemoteDirChildren_cases h sqlite parent children
  · rw [hcall]
    intro heq
    cases heq
    obtain ⟨⟨_, _, _, hsqlite⟩, -⟩ | ⟨source, hsource, hcause⟩ := hcause
    · cases hsqlite
    · cases hsource
      cases hcause with
      | sqlite hsqlite =>
          obtain ⟨_, _, _, hsqlite⟩ := hsqlite
          cases hsqlite
      | inactive _ _ he => cases he
      | missing _ he =>
          have htext := congrArg String.toList (SessionError.internalError.inj he)
          simp only [String.toList_append, List.append_assoc] at htext
          have hfirst := (List.cons.inj htext).1
          revert hfirst
          decide
      | kind _ _ _ _ he => cases he
      | invalid _ _ _ he => cases he
  · rw [hcall]
    simp
  · rw [hcall]
    simp

omit [Uuid] in
theorem sqliteFailure_of_error {α : Type} {sqlite : Sqlite} {read : Except SessionError α}
    {v : α} {e : SessionError}
    (hcases : read = .ok v ∨ ∃ e, read = .error e ∧ SqliteFailure sqlite e)
    (herror : read = .error e) : SqliteFailure sqlite e := by
  obtain hok | ⟨e', hread, hfailure⟩ := hcases
  · rw [hok] at herror
    cases herror
  · rw [hread] at herror
    cases herror
    exact hfailure

theorem namespaceInvariant_of_holds {rootDigest : Digest} {store : SessionStore}
    (h : HoldsRoot rootDigest store) : NamespaceInvariant rootDigest store := by
  obtain ⟨ns, hroot, h⟩ := h
  obtain ⟨loaded, rest, hnodes⟩ := ns.root
  have hrootMem : rootNode ns.rootDigest loaded ∈ ns.nodes := by
    rw [hnodes]
    exact List.mem_cons_self ..
  refine
    { ids_nodup := ?_
      root := ⟨_, row_mem h.nodes hrootMem, rfl, rfl, rfl, rfl, ?_⟩
      only_root := only_root_row h.nodes
      below := below_row h.nodes
      rooted := fun row hrow => rooted_row h.nodes row.id.toNat row hrow (le_refl _)
      names := ?_
      unloaded := unloaded_row h.nodes
      rows_valid := ?_
      session_valid := hroot ▸ h.session
      no_stored_children := no_stored_children_error h
      session_read := ?_
      inode_read := ?_
      child_read := ?_
      children_read := ?_ }
  · rw [h.nodes, List.map_map]
    have hids := ns.ids_nodup.map (f := InodeId.sqlite) fun a b => InodeId.sqlite_inj.mp
    rwa [List.map_map] at hids
  · rw [← hroot]
    rfl
  · rw [h.nodes, List.pairwise_map]
    refine ns.names.imp ?_
    intro m n hne heq
    obtain ⟨hparent, hname⟩ := Prod.mk.inj heq
    refine hne ?_ hname
    exact Option.map_injective (fun a b => InodeId.sqlite_inj.mp) hparent
  · intro row hrow
    obtain ⟨n, hn, rfl⟩ := exists_node_of_row h.nodes hrow
    exact ⟨n.inode, validateInodeRow_row (ns.valid n hn)⟩
  · intro sqlite e herror
    obtain ⟨metadata, -, -, -, hread⟩ := readStoredSession_eq h.session sqlite
      store.databasePath
    refine sqliteFailure_of_error (v := metadata) ?_ herror
    rw [hread]
    obtain hok | ⟨e', hexecute, hfailure⟩ := execute_cases sqlite store.databasePath
      .readSessionMetadata "read session metadata"
    · exact .inl (by rw [hok]; rfl)
    · exact .inr ⟨e', by rw [hexecute]; rfl, hfailure⟩
  · intro sqlite inode e herror
    exact sqliteFailure_of_error
      (getInodeById_cases h.nodes sqlite store.databasePath inode) herror
  · intro sqlite parent name e herror
    exact sqliteFailure_of_error
      (lookupChildInDirInode_cases h.nodes sqlite store.databasePath parent name) herror
  · intro sqlite after parent e herror
    exact sqliteFailure_of_error
      (getDirectoryChildrenOn_cases h.nodes sqlite store.databasePath after parent) herror

end Invariant

def SessionStore.Reached (rootDigest : Digest) (store : SessionStore) : Prop :=
  ∃ sqlite databasePath sessionId daemonPid mountpoint clock created calls,
    SessionStore.create sqlite databasePath sessionId daemonPid rootDigest mountpoint clock =
        .ok created ∧
      Transition.run (fun s call => some (SessionStore.after s call)) created calls =
        some store

theorem run_holdsRoot {rootDigest : Digest} {store store' : SessionStore}
    {calls : List StoreCall} (h : HoldsRoot rootDigest store)
    (hrun : Transition.run (fun s call => some (SessionStore.after s call)) store calls =
      some store') : HoldsRoot rootDigest store' := by
  refine Transition.run_invariant ?_ calls store store' h hrun
  intro s call s' hs hs'
  cases hs'
  exact after_holdsRoot call hs

theorem SessionStore.Reached.holdsRoot {rootDigest : Digest} {store : SessionStore}
    (h : store.Reached rootDigest) : HoldsRoot rootDigest store := by
  obtain ⟨_, _, _, _, _, _, created, calls, hcreate, hrun⟩ := h
  exact run_holdsRoot ⟨_, rfl, (create_holds hcreate).1⟩ hrun

/-- In every state of a store reachable from its creation the inode table is one
tree, every row passes validation, and reads fail only in SQLite. -/
theorem store_namespaceInvariant (sqlite : Sqlite) (databasePath : PathBuf)
    (sessionId : String) (daemonPid : UInt32) (rootDigest : Digest) (mountpoint : PathBuf)
    (clock : ℤ) (created store : SessionStore) (calls : List StoreCall)
    (hcreate : SessionStore.create sqlite databasePath sessionId daemonPid rootDigest
      mountpoint clock = .ok created)
    (hrun : Transition.run (fun s call => some (SessionStore.after s call)) created calls =
      some store) :
    NamespaceInvariant rootDigest store := by
  have hreached : store.Reached rootDigest :=
    ⟨sqlite, databasePath, sessionId, daemonPid, mountpoint, clock, created, calls, hcreate,
      hrun⟩
  exact namespaceInvariant_of_holds hreached.holdsRoot

namespace Sample

/-- A UUID parser that knows the identity of the sample session. -/
@[reducible] def uuid : Uuid where
  parses text := text = "67e55044-10b1-426f-9247-bb680e5fe0c8"

def quiet : Sqlite := fun _ => none

def full : Sqlite
  | .insertRemoteInode _ => some "database or disk is full"
  | _ => none

def digest : Digest :=
  Digest.Sample.contentDigest

def fileChild : NewRemoteInode where
  name := "b"
  mode := some 0o644
  mtime := none
  content := .file digest

def directoryChild : NewRemoteInode where
  name := "a"
  mode := none
  mtime := some .unixEpoch
  content := .directory digest

/-- A failed load, a load, a load with a repeated name, and a close. -/
def calls : List StoreCall :=
  [.getOrCreateRemoteDirChildren full .root [fileChild, directoryChild],
    .getOrCreateRemoteDirChildren quiet .root [fileChild, directoryChild],
    .getOrCreateRemoteDirChildren quiet ⟨3, by decide⟩ [fileChild, fileChild],
    .close quiet 7]

end Sample

omit [Uuid] in
theorem store_namespaceInvariant_sample :
    letI : Uuid := Sample.uuid
    ∃ created store,
      SessionStore.create Sample.quiet [.utf8 "session.db"]
        "67e55044-10b1-426f-9247-bb680e5fe0c8" 7 Sample.digest [.utf8 "", .utf8 "mnt"] 3 =
          .ok created ∧
      Transition.run (fun s call => some (SessionStore.after s call)) created Sample.calls =
        some store ∧
      store.database.inodes.map InodeRow.name = ["", "b", "a"] ∧
      NamespaceInvariant Sample.digest store := by
  let _ : Uuid := Sample.uuid
  refine ⟨_, _, rfl, rfl, by decide +kernel, ?_⟩
  exact store_namespaceInvariant Sample.quiet [.utf8 "session.db"]
    "67e55044-10b1-426f-9247-bb680e5fe0c8" 7 Sample.digest [.utf8 "", .utf8 "mnt"] 3 _ _
    Sample.calls rfl rfl

end Session

end RemoteFs
