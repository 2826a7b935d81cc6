import RemoteFs.Session.Snapshot

/-!
# What the operations of a session do

`Honest` is what a session relies on from the verified cache: a read of a blob
that succeeds returns the content of the remote store. On an active session whose
namespace refines the snapshot, `ensureDirectoryLoaded_cases` says what a load
does: the directory is loaded afterwards, with the children of the snapshot, or
nothing has changed and the error is one of five.
-/

namespace RemoteFs

namespace Session

open RemoteFs.Tree (NodeKind ValidName decodeDirectory)

inductive ErrorKind where
  | internal
  | failedPrecondition
  | notFound
  | notDirectory
  | isDirectory
  | database
  deriving DecidableEq, Repr

def SessionError.kind : SessionError → ErrorKind
  | .internalError _ => .internal
  | .failedPreconditionError _ => .failedPrecondition
  | .notFound _ => .notFound
  | .notDirectory _ => .notDirectory
  | .isDirectory _ => .isDirectory
  | .database _ _ _ => .database
  | .context _ source => source.kind

theorem SessionError.kind_root (e : SessionError) : e.root.kind = e.kind := by
  induction e with
  | context _ _ ih => exact ih
  | _ => rfl

theorem SessionError.FromSqlite.kind_eq {e : SessionError} (h : e.FromSqlite) :
    e.kind = .database := by
  obtain ⟨_, _, _, hroot⟩ := h
  rw [← e.kind_root, hroot]
  rfl

/-- The cache reads of an operation agree with the content of the store. -/
structure Honest (content : Digest → Option Bytes) (env : Surroundings) : Prop where
  blob_ok : ∀ digest bytes downloaded, env.readBlob digest = .ok (bytes, downloaded) →
    content digest = some bytes
  blob_error : ∀ digest e, env.readBlob digest = .error e → e.kind = .internal
  range_ok : ∀ digest offset size bytes downloaded,
    env.readRange digest offset size = .ok (bytes, downloaded) →
      ∃ blob, content digest = some blob ∧ bytes = (blob.drop offset).take size
  range_error : ∀ digest offset size e, env.readRange digest offset size = .error e →
    e.kind = .internal

/-! ### Decoding fails with internal errors -/

theorem nodeMetadata_error {properties : Option Reapi.NodeProperties} {e : SessionError}
    (h : nodeMetadata properties = .error e) : e.kind = .internal := by
  cases properties with
  | none => cases h
  | some properties =>
      simp only [nodeMetadata] at h
      cases hmtime : properties.mtime with
      | none =>
          rw [hmtime] at h
          cases h
      | some timestamp =>
          rw [hmtime, transposed, nodeTime] at h
          split at h
          · cases h
            rfl
          · split at h
            · cases h
            · cases h
              rfl

theorem remoteDigest_error {kind name : String} {digest : Option Reapi.Digest}
    {e : SessionError} (h : remoteDigest kind name digest = .error e) : e.kind = .internal := by
  cases digest with
  | none =>
      cases h
      rfl
  | some digest =>
      simp only [remoteDigest] at h
      cases hdigest : Digest.fromReapi digest with
      | ok d =>
          rw [hdigest] at h
          cases h
      | error source =>
          rw [hdigest] at h
          cases h
          rfl

/-- What the translations of files and directories have in common. -/
def remoteChild (kind name : String) (digest : Option Reapi.Digest)
    (properties : Option Reapi.NodeProperties) (content : Digest → RemoteContent) :
    Except SessionError NewRemoteInode := do
  let (mode, mtime) ← nodeMetadata properties
  let digest ← remoteDigest kind name digest
  .ok { name := name, mode := mode, mtime := mtime, content := content digest }

theorem fileChild_eq (node : Reapi.FileNode) :
    fileChild node =
      remoteChild "file" node.name node.digest node.nodeProperties .file := rfl

theorem directoryChild_eq (node : Reapi.DirectoryNode) :
    directoryChild node =
      remoteChild "directory" node.name node.digest node.nodeProperties .directory := rfl

theorem remoteChild_error {kind name : String} {digest : Option Reapi.Digest}
    {properties : Option Reapi.NodeProperties} {content : Digest → RemoteContent}
    {e : SessionError} (h : remoteChild kind name digest properties content = .error e) :
    e.kind = .internal := by
  obtain h | ⟨_, _, h⟩ := (Result.bind_eq_error_iff _ _ _).mp h
  · exact nodeMetadata_error h
  · obtain h | ⟨_, _, h⟩ := (Result.bind_eq_error_iff _ _ _).mp h
    · exact remoteDigest_error h
    · cases h

theorem symlinkChild_error {node : Reapi.SymlinkNode} {e : SessionError}
    (h : symlinkChild node = .error e) : e.kind = .internal := by
  obtain h | ⟨_, _, h⟩ := (Result.bind_eq_error_iff _ _ _).mp h
  · exact nodeMetadata_error h
  · cases h

theorem decodedDirectoryChildren_error {directory : Reapi.Directory} {e : SessionError}
    (h : decodedDirectoryChildren directory = .error e) : e.kind = .internal := by
  obtain h | ⟨_, _, h⟩ := (Result.bind_eq_error_iff _ _ _).mp h
  · obtain ⟨node, -, hnode⟩ := Result.exists_error_of_mapM _ _ _ h
    exact remoteChild_error hnode
  · obtain h | ⟨_, _, h⟩ := (Result.bind_eq_error_iff _ _ _).mp h
    · obtain ⟨node, -, hnode⟩ := Result.exists_error_of_mapM _ _ _ h
      exact remoteChild_error hnode
    · obtain h | ⟨_, _, h⟩ := (Result.bind_eq_error_iff _ _ _).mp h
      · obtain ⟨node, -, hnode⟩ := Result.exists_error_of_mapM _ _ _ h
        exact symlinkChild_error hnode
      · cases h

/-! ### Fetching children -/

section Operations

variable [Uuid] [Sha256] [Prost] {content : Digest → Option Bytes} {env : Surroundings}

omit [Uuid] in
theorem fetchChildren_cases (honest : Honest content env) (digest : Digest) :
    (∃ children downloaded, fetchChildren env digest = .ok (children, downloaded) ∧
        snapshotChildren content digest = some children) ∨
      (∃ e, fetchChildren env digest = .error e ∧ env.readBlob digest = .error e) ∨
      ∃ e bytes, fetchChildren env digest = .error e ∧ e.kind = .internal ∧
        content digest = some bytes ∧ snapshotChildren content digest = none := by
  rw [fetchChildren, snapshotChildren]
  cases hread : env.readBlob digest with
  | error e => exact .inr (.inl ⟨e, rfl, rfl⟩)
  | ok read =>
      obtain ⟨bytes, downloaded⟩ := read
      have hbytes := honest.blob_ok digest bytes downloaded hread
      rw [hbytes, Result.ok_bind, Option.bind_some]
      dsimp only
      cases hdecode : decodeDirectory digest bytes with
      | error source => exact .inr (.inr ⟨_, bytes, rfl, rfl, rfl, rfl⟩)
      | ok directory =>
          simp only [Except.mapError, Result.ok_bind]
          cases hchildren : decodedDirectoryChildren directory with
          | error e =>
              exact .inr (.inr ⟨e, bytes, rfl, decodedDirectoryChildren_error hchildren, rfl,
                rfl⟩)
          | ok children => exact .inl ⟨children, downloaded, rfl, rfl⟩

/-! ### Reads of an active store -/

section Reads

variable {store : SessionStore} {ns : Namespace} (h : store.database.Holds ns)
  (hactive : store.database.Active)

include h hactive

omit [Sha256] [Prost] in
theorem ensureActive_of_active (sqlite : Sqlite) :
    ensureActive sqlite store.databasePath store.database = .ok () ∨
      ∃ e, ensureActive sqlite store.databasePath store.database = .error e ∧
        SqliteFailure sqlite e := by
  obtain ⟨hok, -⟩ | herror | ⟨-, -, hinactive⟩ :=
    ensureActive_cases h.session sqlite store.databasePath
  · exact .inl hok
  · exact .inr herror
  · exact absurd hactive hinactive

omit [Sha256] [Prost] in
theorem inode_of_active (sqlite : Sqlite) (inode : InodeId) :
    store.inode sqlite inode = .ok ((ns.find inode).map Node.inode) ∨
      ∃ e, store.inode sqlite inode = .error e ∧ SqliteFailure sqlite e := by
  rw [SessionStore.inode]
  obtain hok | ⟨e, herror, hsqlite, hloud⟩ := ensureActive_of_active h hactive sqlite
  · rw [hok, withContext_ok, Result.ok_bind]
    exact getInodeById_cases h.nodes sqlite store.databasePath inode
  · rw [herror]
    exact .inr ⟨_, rfl, hsqlite.context _, hloud⟩

omit [Sha256] [Prost] in
theorem child_of_active (sqlite : Sqlite) (parent : InodeId) (name : String)
    (hname : ValidName name) :
    store.child sqlite parent name = .ok ((ns.child parent name).map Node.inode) ∨
      ∃ e, store.child sqlite parent name = .error e ∧ SqliteFailure sqlite e := by
  have hvalid := (validateInodeName_eq_ok_iff name).mpr hname
  rw [SessionStore.child, hvalid, withContext_ok, Result.ok_bind]
  obtain hok | ⟨e, herror, hsqlite, hloud⟩ := ensureActive_of_active h hactive sqlite
  · rw [hok, withContext_ok, Result.ok_bind]
    exact lookupChildInDirInode_cases h.nodes sqlite store.databasePath parent name
  · rw [herror]
    exact .inr ⟨_, rfl, hsqlite.context _, hloud⟩

omit [Sha256] [Prost] in
theorem getDirectoryChildren_of_active (sqlite : Sqlite) (parent : InodeId) :
    store.getDirectoryChildren sqlite parent = .ok ((ns.children parent).map Node.inode) ∨
      ∃ e, store.getDirectoryChildren sqlite parent = .error e ∧ SqliteFailure sqlite e := by
  rw [SessionStore.getDirectoryChildren]
  obtain hok | ⟨e, herror, hsqlite, hloud⟩ := ensureActive_of_active h hactive sqlite
  · rw [hok, withContext_ok, Result.ok_bind]
    exact getDirectoryChildrenOn_cases h.nodes sqlite store.databasePath false parent
  · rw [herror]
    exact .inr ⟨_, rfl, hsqlite.context _, hloud⟩

end Reads

omit [Sha256] [Prost] in
theorem child_of_invalid (store : SessionStore) (sqlite : Sqlite) (parent : InodeId)
    {name : String} (hname : ¬ ValidName name) :
    ∃ e, store.child sqlite parent name = .error e ∧ e.kind = .internal := by
  rw [SessionStore.child]
  cases hvalid : validateInodeName name with
  | ok => exact absurd ((validateInodeName_eq_ok_iff name).mp hvalid) hname
  | error e =>
      refine ⟨_, rfl, ?_⟩
      rw [validateInodeName] at hvalid
      split at hvalid
      · cases hvalid
        rfl
      · cases hvalid

section Session

variable {s : Session} {ns : Namespace} (h : s.store.database.Holds ns)
  (hactive : s.store.database.Active)

include h hactive

omit [Sha256] [Prost] in
theorem getVisibleInode_cases (inode : InodeId) :
    (∃ n, ns.find inode = some n ∧ getVisibleInode env s inode = .ok n.inode) ∨
      (ns.find inode = none ∧ ∃ reason,
        getVisibleInode env s inode = .error (notFound reason)) ∨
      ∃ e, getVisibleInode env s inode = .error e ∧ SqliteFailure env.inodeSqlite e := by
  rw [getVisibleInode]
  obtain hok | ⟨e, herror, hfailure⟩ := inode_of_active h hactive env.inodeSqlite inode
  · rw [hok, Result.ok_bind]
    cases hfind : ns.find inode with
    | none => exact .inr (.inl ⟨rfl, _, rfl⟩)
    | some n => exact .inl ⟨n, rfl, rfl⟩
  · rw [herror]
    exact .inr (.inr ⟨e, rfl, hfailure⟩)

omit [Sha256] [Prost] in
theorem exists_of_getVisibleInode {inode : InodeId} {stored : StoreInode}
    (hok : getVisibleInode env s inode = .ok stored) :
    ∃ n, ns.find inode = some n ∧ stored = n.inode := by
  obtain ⟨n, hfind, hn⟩ | ⟨-, reason, herror⟩ | ⟨e, herror, -⟩ :=
    @getVisibleInode_cases _ env s ns h hactive inode
  · rw [hn, Except.ok.injEq] at hok
    exact ⟨n, hfind, hok.symm⟩
  · rw [herror] at hok
    cases hok
  · rw [herror] at hok
    cases hok

omit [Sha256] [Prost] in
theorem getVisibleInode_of_find (hquiet : env.inodeSqlite.Quiet) {inode : InodeId} {n : Node}
    (hfind : ns.find inode = some n) : getVisibleInode env s inode = .ok n.inode := by
  obtain ⟨m, hm, hok⟩ | ⟨hnone, -⟩ | ⟨e, -, -, hloud⟩ := getVisibleInode_cases h hactive inode
  · rw [hfind, Option.some.injEq] at hm
    rw [hok, hm]
  · rw [hfind] at hnone
    cases hnone
  · exact absurd hquiet hloud

inductive LoadError (content : Digest → Option Bytes) (env : Surroundings) (ns : Namespace)
    (inode : InodeId) (e : SessionError) : Prop
  | sqlite (h : e.FromSqlite)
  | missing (h : ns.find inode = none) (he : e.kind = .notFound)
  | kind (n : Node) (h : ns.find inode = some n)
      (hkind : n.remote.content.kind ≠ .directory) (he : e.kind = .notDirectory)
  | fetch (n : Node) (digest : Digest) (h : ns.find inode = some n)
      (hcontent : n.remote.content = .directory digest)
      (he : env.readBlob digest = .error e)
  | decode (n : Node) (digest : Digest) (bytes : Bytes) (h : ns.find inode = some n)
      (hcontent : n.remote.content = .directory digest)
      (hbytes : content digest = some bytes)
      (hinvalid : ∀ children, snapshotChildren content digest = some children →
        ¬ ValidChildren children)
      (he : e.kind = .internal)

omit [Uuid] [Sha256] [Prost] h hactive in
theorem content_of_kind {n : Node} (hkind : n.remote.content.kind = .directory) :
    ∃ digest, n.remote.content = .directory digest := by
  cases hcontent : n.remote.content with
  | directory digest => exact ⟨digest, rfl⟩
  | file digest =>
      rw [hcontent] at hkind
      cases hkind
  | symlink target =>
      rw [hcontent] at hkind
      cases hkind

omit [Uuid] [Sha256] [Prost] h hactive in
theorem inode_directoryRemoteDigest {n : Node} {digest : Digest}
    (hcontent : n.remote.content = .directory digest) :
    n.inode.directoryRemoteDigest = some digest := by
  simp [Node.inode, hcontent]

theorem childrenToLoad_cases (honest : Honest content env) (inode : InodeId) :
    (∃ n, ns.find inode = some n ∧ n.IsLoaded ∧ childrenToLoad env s inode = .ok none) ∨
      (∃ n digest children downloaded, ns.find inode = some n ∧
        n.remote.content = .directory digest ∧ n.loaded = false ∧
        snapshotChildren content digest = some children ∧
        childrenToLoad env s inode = .ok (some (children, downloaded))) ∨
      ∃ e, childrenToLoad env s inode = .error e ∧ LoadError content env ns inode e := by
  rw [childrenToLoad]
  obtain ⟨n, hfind, hok⟩ | ⟨hfind, reason, herror⟩ | ⟨e, herror, hsqlite, -⟩ :=
    getVisibleInode_cases h hactive inode
  · rw [hok, Result.ok_bind]
    by_cases hkind : n.inode.kind = .directory
    · rw [if_neg (not_not.mpr hkind)]
      obtain ⟨digest, hcontent⟩ := content_of_kind hkind
      by_cases hloaded : n.loaded = true
      · rw [if_pos ((inode_directoryLoaded_eq_iff n hkind).mpr hloaded)]
        exact .inl ⟨n, hfind, ⟨hkind, hloaded⟩, rfl⟩
      · rw [if_neg fun heq => hloaded ((inode_directoryLoaded_eq_iff n hkind).mp heq),
          inode_directoryRemoteDigest hcontent]
        dsimp only
        obtain ⟨children, downloaded, hfetch, hsnapshot⟩ | ⟨e, herror, hread⟩ |
          ⟨e, bytes, herror, hinternal, hbytes, hnone⟩ := fetchChildren_cases honest digest
        · rw [hfetch]
          exact .inr (.inl ⟨n, digest, children, downloaded, hfind, hcontent,
            by simpa using hloaded, hsnapshot, rfl⟩)
        · rw [herror]
          exact .inr (.inr ⟨e, rfl, .fetch n digest hfind hcontent hread⟩)
        · rw [herror]
          refine .inr (.inr ⟨e, rfl, .decode n digest bytes hfind hcontent hbytes ?_ hinternal⟩)
          intro children hchildren
          rw [hnone] at hchildren
          cases hchildren
    · rw [if_pos hkind]
      exact .inr (.inr ⟨_, rfl, .kind n hfind hkind rfl⟩)
  · rw [herror]
    exact .inr (.inr ⟨_, rfl, .missing hfind rfl⟩)
  · rw [herror]
    exact .inr (.inr ⟨e, rfl, .sqlite hsqlite⟩)

/-- After a successful load the inode is a loaded directory; a failed load
changes nothing. -/
theorem ensureDirectoryLoaded_cases (honest : Honest content env)
    (href : ns.Refines content) (inode : InodeId) :
    (∃ s' : Session, ∃ ns' : Namespace, ensureDirectoryLoaded env s inode = (.ok (), s') ∧
        s'.rootDigest = s.rootDigest ∧ s'.store.database.Holds ns' ∧
        s'.store.database.Active ∧ ns'.Refines content ∧ ns.Grows ns' ∧
        ∃ n ∈ ns'.nodes, n.id = inode ∧ n.IsLoaded) ∨
      ∃ e, ensureDirectoryLoaded env s inode = (.error e, s) ∧
        LoadError content env ns inode e := by
  rw [ensureDirectoryLoaded]
  obtain ⟨n, hfind, hloaded, hok⟩ |
    ⟨n, digest, children, downloaded, hfind, hcontent, hunloaded, hsnapshot, hok⟩ |
    ⟨e, herror, hcause⟩ := childrenToLoad_cases h hactive honest inode
  · rw [hok]
    obtain ⟨hn, hid⟩ := (ns.find_eq_some_iff inode n).mp hfind
    exact .inl ⟨s, ns, rfl, rfl, h, hactive, href, .refl ns, n, hn, hid, hloaded⟩
  · rw [hok]
    obtain ⟨hn, hid⟩ := (ns.find_eq_some_iff inode n).mp hfind
    have hkind : n.remote.content.kind = .directory := by
      rw [hcontent]
      rfl
    dsimp only
    obtain ⟨e, hcall, hcause⟩ | ⟨-, ⟨p, hp, hpid, hloaded⟩, -⟩ |
      ⟨hload, db, -, hcall, hholds, hmetadata⟩ :=
      getOrCreateRemoteDirChildren_cases h env.loadSqlite inode children
    · rw [hcall]
      refine .inr ⟨e, rfl, ?_⟩
      obtain ⟨hsqlite, -⟩ | ⟨source, rfl, hcause⟩ := hcause
      · exact .sqlite hsqlite
      · cases hcause with
        | sqlite hsqlite => exact .sqlite (hsqlite.context _)
        | inactive hinactive => exact absurd hactive hinactive
        | missing hmissing =>
            rw [hfind] at hmissing
            cases hmissing
        | kind p hp hpkind =>
            rw [hfind, Option.some.injEq] at hp
            exact absurd (hp ▸ hkind) hpkind
        | invalid hinvalid operation reason hsource =>
            have hbytes : ∃ bytes, content digest = some bytes := by
              rw [snapshotChildren] at hsnapshot
              obtain ⟨bytes, hbytes, -⟩ := Option.bind_eq_some_iff.mp hsnapshot
              exact ⟨bytes, hbytes⟩
            obtain ⟨bytes, hbytes⟩ := hbytes
            refine .decode n digest bytes hfind hcontent hbytes ?_ (by rw [hsource]; rfl)
            intro children' hchildren'
            rw [hsnapshot, Option.some.injEq] at hchildren'
            exact hchildren' ▸ hinvalid
    · rw [ns.eq_of_id_eq hp hn (hpid.trans hid.symm)] at hloaded
      rw [hloaded.2] at hunloaded
      cases hunloaded
    · rw [hcall]
      refine .inl ⟨_, ns.load inode children hload, rfl, rfl, hholds, ?_,
        Namespace.load_refines href hload hn hid hcontent hsnapshot, Namespace.load_grows hload,
        n.markLoaded inode, ?_, hid, hkind, ?_⟩
      · obtain ⟨row, metadata, hrow, hvalid⟩ := hactive
        exact ⟨row, metadata, hmetadata.trans hrow, hvalid⟩
      · exact (Namespace.mem_loadNodes_iff _).mpr (.inl ⟨n, hn, rfl⟩)
      · simp [Node.markLoaded, hid]
  · rw [herror]
    exact .inr ⟨e, rfl, hcause⟩

end Session

end Operations

end Session

end RemoteFs
