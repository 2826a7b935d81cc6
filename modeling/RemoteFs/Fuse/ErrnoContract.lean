import RemoteFs.Fuse.Requests
import RemoteFs.Session.CacheErrors
import RemoteFs.Session.Frozen

/-!
# Which error number a request is answered with

The answer to a request is the composition of checks of the adapter, checks of the session
in a particular order, and a mapping of nested failures. `Request.contract` lists the reasons
to fail with their error numbers; `errno_contract` says that the answer is the first of them
that applies, in every state that an active session can be in, and what is left of the list
once the session is closed.
-/

namespace RemoteFs

namespace Fuse

open RemoteFs.Session (InodeId Inode Node Namespace Surroundings SessionError ErrorKind Serving
  FromCache getInode getVisibleInode childrenToLoad fetchChildren ensureDirectoryLoaded
  lookupChild listDirectory readRange projectInode)
open RemoteFs.Tree (NodeKind ValidName)

/-! ### The contract -/

open Classical in
/-- The error number of the first condition that holds. -/
noncomputable def firstApplicable : List (Prop × Errno) → Option Errno
  | [] => none
  | (condition, errno) :: rest => if condition then some errno else firstApplicable rest

theorem firstApplicable_of_holds {condition : Prop} (h : condition) (errno : Errno)
    (rest : List (Prop × Errno)) : firstApplicable ((condition, errno) :: rest) = some errno :=
  if_pos h

theorem firstApplicable_of_not {condition : Prop} (h : ¬ condition) (errno : Errno)
    (rest : List (Prop × Errno)) :
    firstApplicable ((condition, errno) :: rest) = firstApplicable rest :=
  if_neg h

theorem firstApplicable_false (errno : Errno) (rest : List (Prop × Errno)) :
    firstApplicable ((False, errno) :: rest) = firstApplicable rest :=
  if_neg not_false

theorem firstApplicable_cons {rest rest' : List (Prop × Errno)}
    (h : firstApplicable rest = firstApplicable rest') (reason : Prop × Errno) :
    firstApplicable (reason :: rest) = firstApplicable (reason :: rest') := by
  rw [firstApplicable, firstApplicable, h]

namespace Request

/-- An open for writing or appending, or one that truncates. -/
def RequestsWrite : Request → Prop
  | .openFile _ flags => flags &&& oWronly ≠ 0 ∨ flags &&& oRdwr ≠ 0 ∨ flags &&& oAppend ≠ 0 ∨
      flags &&& oTrunc ≠ 0
  | _ => False

def NegativeOffset : Request → Prop
  | .directoryEntries _ offset => offset < 0
  | .readBytes _ offset _ => offset < 0
  | _ => False

def Invalid (request : Request) : Prop :=
  request.NegativeOffset ∨ request.inode = 0 ∨ i64Max < request.inode.toNat

def OfDirectory : Request → Prop
  | .lookupNode _ _ _ => True
  | .directoryEntries _ _ => True
  | _ => False

def OfLookup : Request → Prop
  | .lookupNode _ _ _ => True
  | _ => False

def OfOpen : Request → Prop
  | .openFile _ _ => True
  | _ => False

def OfRead : Request → Prop
  | .readBytes _ _ _ => True
  | _ => False

def target (ns : Namespace) (request : Request) : Option Node :=
  (InodeId.new request.inode).toOption.bind ns.find

def Targets (ns : Namespace) (request : Request) (kind : NodeKind) : Prop :=
  ∃ n ∈ request.target ns, n.remote.content.kind = kind

section Failures

variable [Uuid] [Sha256] [Prost] (env : Surroundings) (session : Session) (ns : Namespace)

/-- The fetch or the decoding of a directory that is not loaded fails, or the creation of its
children does. -/
def LoadFails (n : Node) : Prop :=
  ∃ digest, n.remote.content = .directory digest ∧ n.loaded = false ∧
    ((∃ e, fetchChildren env digest = .error e) ∨
      ∃ children downloaded e store, fetchChildren env digest = .ok (children, downloaded) ∧
        session.store.getOrCreateRemoteDirChildren env.loadSqlite n.id children =
          (.error e, store))

/-- What a request needs from the remote store cannot be had. -/
def FetchFails : Request → Prop
  | .lookupNode parent name valid =>
      ∃ n ∈ (Request.lookupNode parent name valid).target ns, LoadFails env session n
  | .directoryEntries inode offset =>
      ∃ n ∈ (Request.directoryEntries inode offset).target ns, LoadFails env session n
  | .readBytes inode offset size =>
      ∃ n ∈ (Request.readBytes inode offset size).target ns, ∃ digest,
        n.remote.content = .file digest ∧
          ∃ e, env.readRange digest offset.toNatClampNeg size.toNat = .error e
  | _ => False

/-- The directory of a lookup, once loaded, has no entry of the name. -/
def ChildMissing : Request → Prop
  | .lookupNode parent name _ => ∀ id, InodeId.new parent = .ok id →
      ∀ row ∈ (ensureDirectoryLoaded env session id).2.store.database.inodes,
        row.parentId = some id.sqlite → row.name ≠ name
  | _ => False

def contract (request : Request) : List (Prop × Errno) :=
  [(request.RequestsWrite, .erofs),
    (request.Invalid, .einval),
    (request.target ns = none, .enoent),
    (request.OfDirectory ∧ ¬ request.Targets ns .directory, .enotdir),
    ((request.OfOpen ∨ request.OfRead) ∧ request.Targets ns .directory, .eisdir),
    (request.OfOpen ∧ request.Targets ns .symlink, .einval),
    (request.OfRead ∧ request.Targets ns .symlink, .eio),
    (request.FetchFails env session ns, .eio),
    (request.ChildMissing env session, .enoent)]

end Failures

/-- The reasons for a request to fail when the lock of its inode is poisoned. A listing reads
the attributes of its directory before it takes the lock. -/
def poisonedContract (ns : Namespace) (request : Request) : List (Prop × Errno) :=
  [(request.RequestsWrite, .erofs),
    (request.Invalid, .einval),
    (request.OfLookup ∨ request.OfRead, .eio),
    (request.target ns = none, .enoent),
    (request.OfDirectory ∧ ¬ request.Targets ns .directory, .enotdir),
    (request.OfDirectory, .eio),
    (request.OfOpen ∧ request.Targets ns .directory, .eisdir),
    (request.OfOpen ∧ request.Targets ns .symlink, .einval)]

/-- The reasons for a request to fail when the session is closed. -/
def closedContract (request : Request) : List (Prop × Errno) :=
  [(request.RequestsWrite, .erofs), (request.Invalid, .einval), (True, .eio)]

end Request

/-! ### Error numbers of failures -/

def kindErrno : ErrorKind → Errno
  | .internal => .eio
  | .failedPrecondition => .eio
  | .notFound => .enoent
  | .notDirectory => .enotdir
  | .isDirectory => .eisdir
  | .database => .eio

/-- The error number of a session failure is that of its kind, below all contexts. -/
theorem errnoForError_fromSession (e : SessionError) :
    errnoForError (.fromSession e) = kindErrno e.kind := by
  induction e with
  | context _ _ ih => exact ih
  | _ => rfl

def failureErrno {α : Type} : Except SessionError α → Option Errno
  | .ok _ => none
  | .error e => some (kindErrno e.kind)

/-- No number of contexts, around a failure of the session or of the filesystem, changes the
error number. -/
theorem errnoForError_contexts (e : SessionError) (inner outer : List String) :
    errnoForError (outer.foldr FilesystemError.context
        (.fromSession (inner.foldr SessionError.context e))) = errnoForError (.fromSession e) := by
  have hinner : errnoForError (.fromSession (inner.foldr SessionError.context e)) =
      errnoForError (.fromSession e) := by
    induction inner with
    | nil => rfl
    | cons operation inner ih => exact ih
  induction outer with
  | nil => exact hinner
  | cons operation outer ih => exact ih

theorem answerErrno_service {α : Type} (result : Except SessionError α) (operation : String) :
    answerErrno ((withContext (result.mapError FilesystemError.fromSession) operation).mapError
      errnoForError) = failureErrno result := by
  cases result with
  | ok a => rfl
  | error e => exact congrArg some (errnoForError_fromSession e)

/-- The inode numbers that are refused are zero and those above the range of `i64`. -/
theorem inodeId_new_cases (inode : UInt64) :
    ((inode = 0 ∨ i64Max < inode.toNat) ∧ ∃ e, InodeId.new inode = .error e) ∨
      ¬ (inode = 0 ∨ i64Max < inode.toNat) ∧ ∃ id, InodeId.new inode = .ok id := by
  unfold InodeId.new
  by_cases hlarge : i64Max < inode.toNat
  · exact .inl ⟨.inr hlarge, _, if_pos hlarge⟩
  · rw [if_neg hlarge]
    by_cases hzero : inode = 0
    · subst hzero
      exact .inl ⟨.inl rfl, _, rfl⟩
    · have hpos : 0 < (inode.toNat : ℤ) := by
        have hne : inode.toNat ≠ 0 := fun h => hzero (UInt64.toNat_inj.mp h)
        omega
      exact .inr ⟨not_or.mpr ⟨hzero, hlarge⟩, _, dif_pos hpos⟩

theorem flags_refused_iff (flags : Int32) :
    (flags &&& oAccmode ≠ oRdonly ∨ flags &&& (oAppend ||| oTrunc) ≠ 0) ↔
      (flags &&& oWronly ≠ 0 ∨ flags &&& oRdwr ≠ 0 ∨ flags &&& oAppend ≠ 0 ∨
        flags &&& oTrunc ≠ 0) := by
  have hdistrib : ∀ a b : Int32, flags &&& (a ||| b) = (flags &&& a) ||| (flags &&& b) := by
    intro a b
    simp [← Int32.toBitVec_inj, BitVec.and_or_distrib_left]
  have haccess : oAccmode = oWronly ||| oRdwr := by decide
  rw [haccess, hdistrib, hdistrib, oRdonly, ne_eq, ne_eq, Int32.or_eq_zero_iff,
    Int32.or_eq_zero_iff, not_and_or, not_and_or, or_assoc]

/-! ### Requests that reach the session -/

section Admitted

variable [Uuid] [Sha256] [Prost] {attr env : Surroundings} {s : Session}

/-- The error number of a request whose arguments are fine, from the results of the session. -/
def Request.sessionErrno (attr env : Surroundings) (session : Session) (inode : InodeId) :
    Request → Option Errno
  | .node _ => failureErrno (getInode env session inode)
  | .lookupNode _ name _ => failureErrno (lookupChild env session inode name).1
  | .directoryEntries _ _ =>
      match getInode attr session inode with
      | .error e => some (kindErrno e.kind)
      | .ok found =>
          if found.kind ≠ .directory then some .enotdir
          else failureErrno (listDirectory env session found.inode).1
  | .openFile _ _ =>
      match getInode env session inode with
      | .error e => some (kindErrno e.kind)
      | .ok found =>
          match found.kind with
          | .file => none
          | .directory => some .eisdir
          | .symlink => some .einval
  | .readBytes _ offset size =>
      failureErrno (readRange env session inode offset.toNatClampNeg size.toNat).1

omit [Sha256] [Prost] in
theorem node_of_new_error {inode : UInt64} {e : SessionError}
    (hid : InodeId.new inode = .error e) : node env s inode = .error .einval := by
  rw [node, hid]
  rfl

omit [Sha256] [Prost] in
theorem node_of_new_ok {inode : UInt64} {id : InodeId} (hid : InodeId.new inode = .ok id) :
    node env s inode = (FilesystemService.getattr env s id).mapError errnoForError := by
  rw [node, hid]
  rfl

omit [Sha256] [Prost] in
theorem node_cases (env : Surroundings) (s : Session) {inode : UInt64} {id : InodeId}
    (hid : InodeId.new inode = .ok id) :
    (∃ e, getInode env s id = .error e ∧ node env s inode = .error (kindErrno e.kind)) ∨
      ∃ found, getInode env s id = .ok found ∧ node env s inode = .ok found := by
  rw [node_of_new_ok hid, FilesystemService.getattr]
  cases getInode env s id with
  | ok found => exact .inr ⟨found, rfl, rfl⟩
  | error e => exact .inl ⟨e, rfl, congrArg Except.error (errnoForError_fromSession e)⟩

theorem errno_of_requestsWrite {request : Request} (h : request.RequestsWrite) :
    request.errno attr env s = some .erofs := by
  cases request with
  | openFile inode flags =>
      rw [Request.errno, openFile, if_pos ((flags_refused_iff flags).mpr h)]
      rfl
  | _ => exact h.elim

theorem errno_of_invalid {request : Request} (hwrite : ¬ request.RequestsWrite)
    (h : request.Invalid) : request.errno attr env s = some .einval := by
  have hnew : ¬ request.NegativeOffset → ∃ e, InodeId.new request.inode = .error e := by
    intro hoffset
    obtain ⟨-, hid⟩ | ⟨hrange, -⟩ := inodeId_new_cases request.inode
    · exact hid
    · exact absurd (h.resolve_left hoffset) hrange
  cases request with
  | node inode =>
      obtain ⟨e, hid⟩ := hnew not_false
      simp only [Request.inode] at hid
      rw [Request.errno, node_of_new_error hid]
      rfl
  | lookupNode parent name valid =>
      obtain ⟨e, hid⟩ := hnew not_false
      simp only [Request.inode] at hid
      rw [Request.errno, lookupNode, OsStr.toStr]
      simp only [hid]
      rfl
  | directoryEntries inode offset =>
      rw [Request.errno, directoryEntries]
      by_cases hoffset : offset < 0
      · rw [if_pos hoffset]
        rfl
      · obtain ⟨e, hid⟩ := hnew hoffset
        simp only [Request.inode] at hid
        rw [if_neg hoffset, node_of_new_error hid]
        rfl
  | openFile inode flags =>
      obtain ⟨e, hid⟩ := hnew not_false
      simp only [Request.inode] at hid
      rw [Request.errno, openFile,
        if_neg fun hflags => hwrite ((flags_refused_iff flags).mp hflags), node_of_new_error hid]
      rfl
  | readBytes inode offset size =>
      rw [Request.errno, readBytes]
      by_cases hoffset : offset < 0
      · rw [if_pos hoffset]
        rfl
      · obtain ⟨e, hid⟩ := hnew hoffset
        simp only [Request.inode] at hid
        rw [if_neg hoffset, hid]
        rfl

theorem errno_of_admitted {request : Request} (hwrite : ¬ request.RequestsWrite)
    (hvalid : ¬ request.Invalid) {id : InodeId} (hid : InodeId.new request.inode = .ok id) :
    request.errno attr env s = request.sessionErrno attr env s id := by
  have hoffset : ¬ request.NegativeOffset := fun h => hvalid (.inl h)
  cases request with
  | node inode =>
      simp only [Request.inode] at hid
      obtain ⟨e, hget, hnode⟩ | ⟨found, hget, hnode⟩ := node_cases env s hid
      all_goals rw [Request.errno, Request.sessionErrno, hnode, hget]
      all_goals rfl
  | lookupNode parent name valid =>
      simp only [Request.inode] at hid
      rw [Request.errno, Request.sessionErrno, lookupNode, OsStr.toStr]
      simp only [hid, FilesystemService.lookupDirChild]
      exact answerErrno_service _ _
  | directoryEntries inode offset =>
      simp only [Request.inode] at hid
      rw [Request.errno, Request.sessionErrno, directoryEntries,
        if_neg (show ¬ offset < 0 from hoffset)]
      obtain ⟨e, hget, hnode⟩ | ⟨found, hget, hnode⟩ := node_cases attr s hid
      · rw [hnode, hget]
        rfl
      · rw [hnode, hget]
        dsimp only
        split
        · rfl
        · rw [FilesystemService.readdir]
          cases hlist : listDirectory env s found.inode with
          | mk result t =>
              cases result with
              | ok children => rfl
              | error e => exact congrArg some (errnoForError_fromSession e)
  | openFile inode flags =>
      simp only [Request.inode] at hid
      rw [Request.errno, Request.sessionErrno, openFile,
        if_neg fun hflags => hwrite ((flags_refused_iff flags).mp hflags)]
      obtain ⟨e, hget, hnode⟩ | ⟨found, hget, hnode⟩ := node_cases env s hid
      · rw [hnode, hget]
        rfl
      · rw [hnode, hget, Result.ok_bind]
        dsimp only
        cases found.kind <;> rfl
  | readBytes inode offset size =>
      simp only [Request.inode] at hid
      rw [Request.errno, Request.sessionErrno, readBytes,
        if_neg (show ¬ offset < 0 from hoffset)]
      simp only [hid, FilesystemService.read]
      exact answerErrno_service _ _

end Admitted

/-! ### Answers of an active session -/

section Active

variable [Uuid] {s : Session} {ns : Namespace} {env : Surroundings}

/-- SQLite reports no failure in what surrounds a call. -/
structure Quiet (env : Surroundings) : Prop where
  inode : env.inodeSqlite.Quiet
  load : env.loadSqlite.Quiet
  read : env.readSqlite.Quiet

theorem getVisibleInode_of_quiet (h : Serving s ns) (hquiet : Quiet env) (inode : InodeId) :
    (∃ n, ns.find inode = some n ∧ getVisibleInode env s inode = .ok n.inode) ∨
      ns.find inode = none ∧ ∃ reason,
        getVisibleInode env s inode = .error (Session.notFound reason) := by
  obtain hok | hnone | ⟨e, -, -, hloud⟩ := Session.getVisibleInode_cases h.holds h.active inode
  · exact .inl hok
  · exact .inr hnone
  · exact absurd hquiet.inode hloud

theorem getInode_of_quiet (h : Serving s ns) (hquiet : Quiet env) (inode : InodeId) :
    (∃ n, ns.find inode = some n ∧ getInode env s inode = .ok (projectInode n.inode)) ∨
      ns.find inode = none ∧ ∃ e, getInode env s inode = .error e ∧ e.kind = .notFound := by
  obtain ⟨n, hfind, hok⟩ | ⟨hnone, reason, herror⟩ := getVisibleInode_of_quiet h hquiet inode
  · refine .inl ⟨n, hfind, ?_⟩
    rw [getInode, hok]
    rfl
  · refine .inr ⟨hnone, Session.notFound reason, ?_, rfl⟩
    rw [getInode, herror]
    rfl

variable [Sha256] [Prost] {root : PathBuf}

inductive LoadAnswer (env : Surroundings) (s : Session) (ns : Namespace) (inode : InodeId) :
    Except SessionError Unit → Prop
  | missing (e : SessionError) (hfind : ns.find inode = none) (he : e.kind = .notFound) :
      LoadAnswer env s ns inode (.error e)
  | kind (e : SessionError) (n : Node) (hfind : ns.find inode = some n)
      (hkind : n.remote.content.kind ≠ .directory) (he : e.kind = .notDirectory) :
      LoadAnswer env s ns inode (.error e)
  | fails (e : SessionError) (n : Node) (hfind : ns.find inode = some n)
      (hkind : n.remote.content.kind = .directory) (hfails : Request.LoadFails env s n)
      (he : kindErrno e.kind = .eio) : LoadAnswer env s ns inode (.error e)
  | loads (n : Node) (hfind : ns.find inode = some n)
      (hkind : n.remote.content.kind = .directory) (hloads : ¬ Request.LoadFails env s n) :
      LoadAnswer env s ns inode (.ok ())

omit [Sha256] [Prost] in
theorem createError_errno {inode : InodeId} {n : Node} {children : List Session.NewRemoteInode}
    (h : Serving s ns) (hquiet : Quiet env) (hfind : ns.find inode = some n)
    (hkind : n.remote.content.kind = .directory) {e : SessionError}
    {store : Session.SessionStore}
    (hcall : s.store.getOrCreateRemoteDirChildren env.loadSqlite inode children =
      (.error e, store)) : kindErrno e.kind = .eio := by
  obtain ⟨e', hcall', hcause⟩ | ⟨-, -, hcall'⟩ | ⟨hload, db, -, hcall', -, -⟩ :=
    Session.getOrCreateRemoteDirChildren_cases h.holds env.loadSqlite inode children
  · rw [hcall'] at hcall
    cases hcall
    obtain ⟨-, hloud⟩ | ⟨source, rfl, hcause⟩ := hcause
    · exact absurd hquiet.load hloud
    · rw [SessionError.kind]
      cases hcause with
      | sqlite hsqlite => rw [hsqlite.kind_eq]; rfl
      | inactive hinactive => exact absurd h.active hinactive
      | missing hmissing =>
          rw [hfind] at hmissing
          cases hmissing
      | kind p hp hpkind =>
          rw [hfind, Option.some.injEq] at hp
          exact absurd (hp ▸ hkind) hpkind
      | invalid _ operation reason hsource =>
          rw [hsource]
          rfl
  · rw [hcall'] at hcall
    cases hcall
  · rw [hcall'] at hcall
    cases hcall

theorem ensureDirectoryLoaded_answer (h : Serving s ns) (hquiet : Quiet env)
    (hcache : FromCache root env) (inode : InodeId) :
    LoadAnswer env s ns inode (ensureDirectoryLoaded env s inode).1 := by
  rw [ensureDirectoryLoaded, childrenToLoad]
  obtain ⟨n, hfind, hok⟩ | ⟨hnone, reason, herror⟩ := getVisibleInode_of_quiet h hquiet inode
  · obtain ⟨-, rfl⟩ := (ns.find_eq_some_iff inode n).mp hfind
    rw [hok, Result.ok_bind]
    by_cases hkind : n.inode.kind = .directory
    · rw [if_neg (not_not.mpr hkind)]
      obtain ⟨digest, hcontent⟩ := Session.content_of_kind hkind
      by_cases hloaded : n.loaded = true
      · rw [if_pos ((Session.inode_directoryLoaded_eq_iff n hkind).mpr hloaded)]
        refine .loads n hfind hkind ?_
        rintro ⟨_, -, hunloaded, -⟩
        rw [hloaded] at hunloaded
        cases hunloaded
      · have hunloaded : n.loaded = false := by simpa using hloaded
        rw [if_neg fun heq =>
          hloaded ((Session.inode_directoryLoaded_eq_iff n hkind).mp heq),
          Session.inode_directoryRemoteDigest hcontent]
        dsimp only
        cases hfetch : fetchChildren env digest with
        | error e =>
            refine .fails e n hfind hkind ⟨digest, hcontent, hunloaded, .inl ⟨e, hfetch⟩⟩ ?_
            rw [hcache.fetchChildren_error hfetch]
            rfl
        | ok fetched =>
            obtain ⟨children, downloaded⟩ := fetched
            rw [Result.ok_bind]
            dsimp only
            cases hcall : s.store.getOrCreateRemoteDirChildren env.loadSqlite n.id children with
            | mk result store =>
                cases result with
                | error e =>
                    exact .fails e n hfind hkind
                      ⟨digest, hcontent, hunloaded, .inr ⟨_, _, e, store, hfetch, hcall⟩⟩
                      (createError_errno h hquiet hfind hkind hcall)
                | ok stored =>
                    refine .loads n hfind hkind ?_
                    rintro ⟨digest', hcontent', -, hfails⟩
                    rw [hcontent] at hcontent'
                    cases hcontent'
                    obtain ⟨e, hfetch'⟩ | ⟨_, _, e, _, hfetch', hcall'⟩ := hfails
                    · rw [hfetch] at hfetch'
                      cases hfetch'
                    · rw [hfetch] at hfetch'
                      cases hfetch'
                      rw [hcall] at hcall'
                      cases hcall'
    · rw [if_pos hkind]
      exact .kind _ n hfind hkind rfl
  · rw [herror]
    exact .missing _ hnone rfl

theorem listDirectory_errno (h : Serving s ns) (hquiet : Quiet env) (inode : InodeId) :
    failureErrno (listDirectory env s inode).1 =
      failureErrno (ensureDirectoryLoaded env s inode).1 := by
  obtain ⟨ns', h', -, -⟩ := h.ensureDirectoryLoaded env inode
  rw [listDirectory]
  cases hload : ensureDirectoryLoaded env s inode with
  | mk result t =>
      rw [hload] at h'
      cases result with
      | error e => rfl
      | ok =>
          dsimp only
          obtain hread | ⟨e, -, -, hloud⟩ :=
            Session.getDirectoryChildren_of_active h'.holds h'.active env.readSqlite inode
          · rw [Session.readChildren, hread]
            rfl
          · exact absurd hquiet.read hloud

omit [Uuid] [Sha256] [Prost] in
theorem child_eq_none_iff {db : Session.Database} (h : db.HoldsNodes ns.nodes)
    (parent : InodeId) (name : String) :
    ns.child parent name = none ↔
      ∀ row ∈ db.inodes, row.parentId = some parent.sqlite → row.name ≠ name := by
  rw [← Option.map_eq_none_iff (f := Node.row), ← Session.find_childRow h parent name,
    List.find?_eq_none]
  simp only [decide_eq_true_eq, not_and, ne_eq]

theorem lookupChild_errno (h : Serving s ns) (hquiet : Quiet env) {parent : UInt64}
    {id : InodeId} (hid : InodeId.new parent = .ok id) {name : String} (valid : ValidName name) :
    (∃ e, (ensureDirectoryLoaded env s id).1 = .error e ∧
        failureErrno (lookupChild env s id name).1 = some (kindErrno e.kind)) ∨
      (ensureDirectoryLoaded env s id).1 = .ok () ∧
        ((Request.lookupNode parent name valid).ChildMissing env s ∧
            failureErrno (lookupChild env s id name).1 = some .enoent ∨
          ¬ (Request.lookupNode parent name valid).ChildMissing env s ∧
            failureErrno (lookupChild env s id name).1 = none) := by
  obtain ⟨ns', h', -, -⟩ := h.ensureDirectoryLoaded env id
  have hmissing : (Request.lookupNode parent name valid).ChildMissing env s ↔
      ns'.child id name = none := by
    rw [child_eq_none_iff h'.holds.nodes]
    constructor
    · intro hnone
      exact hnone id hid
    · intro hnone id' hid'
      rw [hid, Except.ok.injEq] at hid'
      exact hid' ▸ hnone
  rw [hmissing, lookupChild]
  cases hload : ensureDirectoryLoaded env s id with
  | mk result t =>
      rw [hload] at h'
      cases result with
      | error e => exact .inl ⟨e, rfl, rfl⟩
      | ok =>
          refine .inr ⟨rfl, ?_⟩
          dsimp only
          obtain hread | ⟨e, -, -, hloud⟩ :=
            Session.child_of_active h'.holds h'.active env.readSqlite id name valid
          · rw [Session.readChild, hread]
            cases hchild : ns'.child id name with
            | none => exact .inl ⟨rfl, rfl⟩
            | some c => exact .inr ⟨Option.some_ne_none c, rfl⟩
          · exact absurd hquiet.read hloud

omit [Sha256] [Prost] in
theorem readRange_errno [Sha256] (h : Serving s ns) (hquiet : Quiet env)
    (hcache : FromCache root env) {inode : InodeId} {n : Node} (hfind : ns.find inode = some n)
    (offset size : ℕ) :
    failureErrno (readRange env s inode offset size).1 =
      match n.remote.content with
      | .directory _ => some .eisdir
      | .symlink _ => some .eio
      | .file digest =>
          match env.readRange digest offset size with
          | .error _ => some .eio
          | .ok _ => none := by
  rw [readRange, Session.getVisibleInode_of_find h.holds h.active hquiet.inode hfind]
  cases hcontent : n.remote.content with
  | directory digest =>
      simp only [Session.readStored, Node.inode, hcontent, Session.RemoteContent.kind, if_true]
      rfl
  | symlink target =>
      simp only [Session.readStored, Node.inode, hcontent, Session.RemoteContent.kind]
      rfl
  | file digest =>
      simp only [Session.readStored, Node.inode, hcontent, Session.RemoteContent.kind]
      rw [if_neg (by decide), if_neg (by decide)]
      cases hread : env.readRange digest offset size with
      | ok read => rfl
      | error e =>
          dsimp only [failureErrno]
          rw [hcache.range_error hread]
          rfl

omit [Uuid] [Sha256] [Prost] in
theorem target_of_new {request : Request} {id : InodeId}
    (hid : InodeId.new request.inode = .ok id) : request.target ns = ns.find id := by
  rw [Request.target, hid]
  rfl

omit [Uuid] [Sha256] [Prost] in
theorem targets_iff {request : Request} {id : InodeId} {n : Node}
    (hid : InodeId.new request.inode = .ok id) (hfind : ns.find id = some n) (kind : NodeKind) :
    request.Targets ns kind ↔ n.remote.content.kind = kind := by
  simp only [Request.Targets, target_of_new hid, hfind, Option.mem_some_iff, exists_eq_left']

theorem load_errno_of_missing (h : Serving s ns) (hquiet : Quiet env)
    (hcache : FromCache root env) {inode : InodeId} (hfind : ns.find inode = none) :
    ∃ e, (ensureDirectoryLoaded env s inode).1 = .error e ∧ e.kind = .notFound := by
  have hanswer := ensureDirectoryLoaded_answer h hquiet hcache inode
  cases hload : (ensureDirectoryLoaded env s inode).1 with
  | error e =>
      rw [hload] at hanswer
      cases hanswer with
      | missing _ _ he => exact ⟨e, rfl, he⟩
      | kind _ n hfound => rw [hfind] at hfound; cases hfound
      | fails _ n hfound => rw [hfind] at hfound; cases hfound
  | ok =>
      rw [hload] at hanswer
      cases hanswer with
      | loads n hfound => rw [hfind] at hfound; cases hfound

theorem load_errno (h : Serving s ns) (hquiet : Quiet env) (hcache : FromCache root env)
    {inode : InodeId} {n : Node} (hfind : ns.find inode = some n) :
    failureErrno (ensureDirectoryLoaded env s inode).1 =
      firstApplicable [(n.remote.content.kind ≠ .directory, .enotdir),
        (Request.LoadFails env s n, .eio)] := by
  have hanswer := ensureDirectoryLoaded_answer h hquiet hcache inode
  generalize (ensureDirectoryLoaded env s inode).1 = result at hanswer ⊢
  cases hanswer with
  | missing e hnone => rw [hfind] at hnone; cases hnone
  | kind e m hm hkind he =>
      rw [hfind, Option.some.injEq] at hm
      rw [firstApplicable_of_holds (hm ▸ hkind), failureErrno, he]
      rfl
  | fails e m hm hkind hfails he =>
      rw [hfind, Option.some.injEq] at hm
      subst hm
      rw [firstApplicable_of_not (not_not.mpr hkind), firstApplicable_of_holds hfails,
        failureErrno, he]
  | loads m hm hkind hloads =>
      rw [hfind, Option.some.injEq] at hm
      subst hm
      rw [firstApplicable_of_not (not_not.mpr hkind), firstApplicable_of_not hloads]
      rfl

theorem sessionErrno_of_missing {attr : Surroundings} (h : Serving s ns) (hattr : Quiet attr)
    (hquiet : Quiet env) (hcache : FromCache root env) (request : Request) {id : InodeId}
    (hfind : ns.find id = none) : request.sessionErrno attr env s id = some .enoent := by
  have hget : ∀ env, Quiet env → ∃ e, getInode env s id = .error e ∧ e.kind = .notFound := by
    intro env hquiet
    obtain ⟨n, hsome, -⟩ | ⟨-, herror⟩ := getInode_of_quiet h hquiet id
    · rw [hfind] at hsome
      cases hsome
    · exact herror
  cases request with
  | node inode =>
      obtain ⟨e, herror, hkind⟩ := hget env hquiet
      rw [Request.sessionErrno, herror, failureErrno, hkind]
      rfl
  | lookupNode parent name valid =>
      obtain ⟨e, herror, hkind⟩ := load_errno_of_missing h hquiet hcache hfind
      rw [Request.sessionErrno, lookupChild]
      cases hload : ensureDirectoryLoaded env s id with
      | mk result t =>
          rw [hload] at herror
          cases herror
          dsimp only [failureErrno]
          rw [hkind]
          rfl
  | directoryEntries inode offset =>
      obtain ⟨e, herror, hkind⟩ := hget attr hattr
      simp only [Request.sessionErrno, herror, hkind]
      rfl
  | openFile inode flags =>
      obtain ⟨e, herror, hkind⟩ := hget env hquiet
      simp only [Request.sessionErrno, herror, hkind]
      rfl
  | readBytes inode offset size =>
      obtain ⟨n, hsome, -⟩ | ⟨-, reason, herror⟩ := getVisibleInode_of_quiet h hquiet id
      · rw [hfind] at hsome
        cases hsome
      · rw [Request.sessionErrno, readRange, herror]
        rfl

theorem lookupChild_contract (h : Serving s ns) (hquiet : Quiet env)
    (hcache : FromCache root env) {parent : UInt64} {id : InodeId}
    (hid : InodeId.new parent = .ok id) {n : Node} (hfind : ns.find id = some n) {name : String}
    (valid : ValidName name) :
    failureErrno (lookupChild env s id name).1 =
      firstApplicable [(n.remote.content.kind ≠ .directory, .enotdir), (False, .eisdir),
        (False, .einval), (False, .eio), (Request.LoadFails env s n, .eio),
        ((Request.lookupNode parent name valid).ChildMissing env s, .enoent)] := by
  have hload := load_errno h hquiet hcache hfind
  by_cases hdirectory : n.remote.content.kind = .directory
  · rw [firstApplicable_of_not (not_not.mpr hdirectory)] at hload ⊢
    simp only [firstApplicable_false]
    obtain ⟨e, herror, hlookup⟩ | ⟨hok, hlookup⟩ := lookupChild_errno h hquiet hid valid
    · rw [herror, failureErrno] at hload
      rw [hlookup, hload]
      by_cases hfails : Request.LoadFails env s n
      · rw [firstApplicable_of_holds hfails, firstApplicable_of_holds hfails]
      · rw [firstApplicable_of_not hfails] at hload
        cases hload
    · have hloads : ¬ Request.LoadFails env s n := by
        intro hfails
        rw [hok, firstApplicable_of_holds hfails] at hload
        cases hload
      rw [firstApplicable_of_not hloads]
      obtain ⟨hmissing, hlookup⟩ | ⟨hpresent, hlookup⟩ := hlookup
      · rw [firstApplicable_of_holds hmissing, hlookup]
      · rw [firstApplicable_of_not hpresent, hlookup]
        rfl
  · rw [firstApplicable_of_holds hdirectory] at hload ⊢
    obtain ⟨e, herror, hlookup⟩ | ⟨hok, -⟩ := lookupChild_errno h hquiet hid valid
    · rw [herror, failureErrno] at hload
      rw [hlookup, hload]
    · rw [hok] at hload
      cases hload

/-- The answer of the session is the first reason of the contract that is left. -/
theorem sessionErrno_eq {attr : Surroundings} (h : Serving s ns) (hattr : Quiet attr)
    (hquiet : Quiet env) (hcache : FromCache root env) {request : Request} {id : InodeId}
    (hid : InodeId.new request.inode = .ok id) :
    request.sessionErrno attr env s id =
      firstApplicable ((request.contract env s ns).drop 2) := by
  have htarget : request.target ns = ns.find id := target_of_new hid
  change _ = firstApplicable ((request.target ns = none, .enoent) :: _)
  cases hfind : ns.find id with
  | none =>
      rw [firstApplicable_of_holds (htarget.trans hfind),
        sessionErrno_of_missing h hattr hquiet hcache request hfind]
  | some n =>
      rw [hfind] at htarget
      rw [firstApplicable_of_not (htarget ▸ Option.some_ne_none n)]
      have hkind := targets_iff hid hfind
      have hget : ∀ env, Quiet env → getInode env s id = .ok (projectInode n.inode) :=
        fun env hquiet => h.getInode_of_find hquiet.inode hfind
      have hload := load_errno h hquiet hcache hfind
      cases request with
      | node inode =>
          simp only [Request.OfDirectory, Request.OfOpen, Request.OfRead, Request.FetchFails,
            Request.ChildMissing, false_and, or_false, firstApplicable_false]
          rw [Request.sessionErrno, hget env hquiet]
          rfl
      | lookupNode parent name valid =>
          simp only [Request.OfDirectory, Request.OfOpen, Request.OfRead, Request.FetchFails,
            false_and, true_and, or_false, hkind, htarget, Option.mem_some_iff,
            exists_eq_left']
          rw [Request.sessionErrno]
          exact lookupChild_contract h hquiet hcache hid hfind valid
      | directoryEntries inode offset =>
          simp only [Request.OfDirectory, Request.OfOpen, Request.OfRead, Request.FetchFails,
            Request.ChildMissing, false_and, true_and, or_false, hkind, htarget,
            Option.mem_some_iff, exists_eq_left']
          simp only [Request.sessionErrno, hget attr hattr]
          have hproject : (projectInode n.inode).kind = n.remote.content.kind := rfl
          rw [hproject]
          by_cases hdirectory : n.remote.content.kind = .directory
          · rw [if_neg (not_not.mpr hdirectory), firstApplicable_of_not (not_not.mpr hdirectory)]
            rw [firstApplicable_of_not (not_not.mpr hdirectory)] at hload
            have hid' : (projectInode n.inode).inode = id :=
              ((ns.find_eq_some_iff id n).mp hfind).2
            rw [hid', listDirectory_errno h hquiet, hload]
            simp only [firstApplicable_false]
            by_cases hfails : Request.LoadFails env s n
            · rw [firstApplicable_of_holds hfails, firstApplicable_of_holds hfails]
            · rw [firstApplicable_of_not hfails, firstApplicable_of_not hfails,
                firstApplicable_false]
          · rw [if_pos hdirectory, firstApplicable_of_holds hdirectory]
      | openFile inode flags =>
          simp only [Request.OfDirectory, Request.OfOpen, Request.OfRead, Request.FetchFails,
            Request.ChildMissing, false_and, true_and, or_false, firstApplicable_false, hkind]
          simp only [Request.sessionErrno, hget env hquiet]
          change (match n.remote.content.kind with
            | .file => none
            | .directory => some Errno.eisdir
            | .symlink => some Errno.einval) = _
          cases n.remote.content.kind with
          | file =>
              rw [firstApplicable_of_not (by decide), firstApplicable_of_not (by decide)]
              simp only [firstApplicable_false]
              rfl
          | directory => rw [firstApplicable_of_holds rfl]
          | symlink => rw [firstApplicable_of_not (by decide), firstApplicable_of_holds rfl]
      | readBytes inode offset size =>
          simp only [Request.OfDirectory, Request.OfOpen, Request.OfRead, Request.FetchFails,
            Request.ChildMissing, false_and, true_and, false_or, firstApplicable_false, hkind,
            htarget, Option.mem_some_iff, exists_eq_left']
          rw [Request.sessionErrno, readRange_errno h hquiet hcache hfind]
          cases n.remote.content
          all_goals simp only [Session.RemoteContent.kind]
          case directory digest => rw [firstApplicable_of_holds trivial]
          case symlink target =>
              rw [firstApplicable_of_not (by decide)]
              simp only [firstApplicable_false]
              rw [firstApplicable_of_holds trivial]
          case file digest =>
              rw [firstApplicable_of_not (by decide)]
              simp only [firstApplicable_false]
              rw [firstApplicable_of_not (by decide)]
              cases hread : env.readRange digest offset.toNatClampNeg size.toNat with
              | error e => rw [firstApplicable_of_holds ⟨digest, rfl, e, hread⟩]
              | ok read =>
                  rw [firstApplicable_of_not, firstApplicable_false]
                  · rfl
                  · rintro ⟨digest', hdigest, e, herror⟩
                    cases hdigest
                    rw [hread] at herror
                    cases herror

end Active

/-! ### Answers of a closed session -/

section Closed

variable [Uuid] [Sha256] [Prost] {s : Session} {ns : Namespace} {attr env : Surroundings}

theorem sessionErrno_of_inactive (hholds : s.store.database.Holds ns)
    (hinactive : ¬ s.store.database.Active) (hattr : Quiet attr) (hquiet : Quiet env)
    (request : Request) (id : InodeId) :
    request.sessionErrno attr env s id = some .eio := by
  have heio : ∀ e : SessionError, (∃ reason, e.root = Session.failedPrecondition reason) →
      kindErrno e.kind = .eio := by
    rintro e ⟨reason, hroot⟩
    rw [← e.kind_root, hroot]
    rfl
  have hget : ∀ env, Quiet env → ∃ e, getInode env s id = .error e ∧ kindErrno e.kind = .eio := by
    intro env hquiet
    obtain ⟨e, herror, hcause⟩ :=
      Session.getVisibleInode_of_inactive hholds hinactive env id
    refine ⟨e, ?_, heio e (hcause hquiet.inode)⟩
    rw [getInode, herror]
    rfl
  cases request with
  | node inode =>
      obtain ⟨e, herror, hkind⟩ := hget env hquiet
      rw [Request.sessionErrno, herror, failureErrno, hkind]
  | lookupNode parent name valid =>
      obtain ⟨e, herror, hcause⟩ :=
        Session.childrenToLoad_of_inactive hholds hinactive env id
      rw [Request.sessionErrno, lookupChild, ensureDirectoryLoaded, herror]
      exact congrArg some (heio e (hcause hquiet.inode))
  | directoryEntries inode offset =>
      obtain ⟨e, herror, hkind⟩ := hget attr hattr
      simp only [Request.sessionErrno, herror, hkind]
  | openFile inode flags =>
      obtain ⟨e, herror, hkind⟩ := hget env hquiet
      simp only [Request.sessionErrno, herror, hkind]
  | readBytes inode offset size =>
      obtain ⟨e, herror, hcause⟩ :=
        Session.getVisibleInode_of_inactive hholds hinactive env id
      rw [Request.sessionErrno, readRange, herror]
      exact congrArg some (heio e (hcause hquiet.inode))

/-- The checks of the flags and of the arguments come before the session is asked. -/
theorem errno_eq (request : Request) (reasons : List (Prop × Errno))
    (h : ∀ id, InodeId.new request.inode = .ok id →
      request.sessionErrno attr env s id = firstApplicable reasons) :
    request.errno attr env s =
      firstApplicable
        ((request.RequestsWrite, .erofs) :: (request.Invalid, .einval) :: reasons) := by
  by_cases hwrite : request.RequestsWrite
  · rw [errno_of_requestsWrite hwrite, firstApplicable_of_holds hwrite]
  · rw [firstApplicable_of_not hwrite]
    by_cases hinvalid : request.Invalid
    · rw [errno_of_invalid hwrite hinvalid, firstApplicable_of_holds hinvalid]
    · rw [firstApplicable_of_not hinvalid]
      obtain ⟨hrange, -⟩ | ⟨-, id, hid⟩ := inodeId_new_cases request.inode
      · exact absurd (.inr hrange) hinvalid
      · rw [errno_of_admitted hwrite hinvalid hid, h id hid]

end Closed

/-! ### Poisoned locks -/

section Poisoned

variable [Uuid] [Sha256] [Prost] {s : Session} {ns : Namespace} {attr env : Surroundings}
  {root : PathBuf}

omit [Uuid] [Sha256] [Prost] in
theorem invalid_iff_of_new {request : Request} {id : InodeId}
    (hid : InodeId.new request.inode = .ok id) : request.Invalid ↔ request.NegativeOffset := by
  refine ⟨fun hinvalid => hinvalid.resolve_right fun hrange => ?_, .inl⟩
  obtain ⟨-, e, herror⟩ | ⟨hfine, -⟩ := inodeId_new_cases request.inode
  · rw [hid] at herror
    cases herror
  · exact hfine hrange

omit [Sha256] [Prost] in
theorem poisonedErrno_listing (h : Serving s ns) (hattr : Quiet attr) {inode : UInt64}
    {offset : Int64} {id : InodeId}
    (hid : InodeId.new (Request.directoryEntries inode offset).inode = .ok id) :
    (Request.directoryEntries inode offset).poisonedErrno attr env s =
      firstApplicable ((Request.directoryEntries inode offset).poisonedContract ns) := by
  have hinvalid : (Request.directoryEntries inode offset).Invalid ↔ offset < 0 :=
    invalid_iff_of_new hid
  have hwrite : ¬ (Request.directoryEntries inode offset).RequestsWrite := not_false
  have hother : ¬ ((Request.directoryEntries inode offset).OfLookup ∨
      (Request.directoryEntries inode offset).OfRead) := not_or.mpr ⟨not_false, not_false⟩
  have hlisting : (Request.directoryEntries inode offset).OfDirectory := trivial
  have htarget : (Request.directoryEntries inode offset).target ns = ns.find id :=
    target_of_new hid
  rw [Request.poisonedContract, firstApplicable_of_not hwrite, Request.poisonedErrno]
  by_cases hoffset : offset < 0
  · rw [if_pos hoffset, firstApplicable_of_holds (hinvalid.mpr hoffset)]
  · rw [if_neg hoffset, firstApplicable_of_not (hinvalid.not.mpr hoffset),
      firstApplicable_of_not hother]
    obtain ⟨n, hfind, hget⟩ | ⟨hfind, e, hget, hkind⟩ := getInode_of_quiet h hattr id
    · have hdirectory := targets_iff hid hfind .directory
      rw [firstApplicable_of_not (by rw [htarget, hfind]; exact Option.some_ne_none n)]
      obtain ⟨e, hget', -⟩ | ⟨found, hget', hnode⟩ := node_cases attr s hid
      · rw [hget] at hget'
        cases hget'
      · rw [hget] at hget'
        cases hget'
        simp only [Request.inode] at hnode
        rw [hnode]
        have hproject : (projectInode n.inode).kind = n.remote.content.kind := rfl
        dsimp only
        rw [hproject]
        by_cases hkind : n.remote.content.kind = .directory
        · rw [if_neg (not_not.mpr hkind),
            firstApplicable_of_not (fun h => h.2 (hdirectory.mpr hkind)),
            firstApplicable_of_holds hlisting]
          rfl
        · rw [if_pos hkind,
            firstApplicable_of_holds ⟨hlisting, fun h => hkind (hdirectory.mp h)⟩]
    · rw [firstApplicable_of_holds (htarget.trans hfind)]
      obtain ⟨e', hget', hnode⟩ | ⟨found, hget', -⟩ := node_cases attr s hid
      · rw [hget] at hget'
        cases hget'
        simp only [Request.inode] at hnode
        rw [hnode, hkind]
        rfl
      · rw [hget] at hget'
        cases hget'

/-- While the session is active a request whose inode has a poisoned lock is answered with the
first reason of its contract. -/
theorem poisonedErrno_eq (h : Serving s ns) (hattr : Quiet attr) (hquiet : Quiet env)
    (hcache : FromCache root env) {request : Request} {id : InodeId}
    (hid : InodeId.new request.inode = .ok id) :
    request.poisonedErrno attr env s = firstApplicable (request.poisonedContract ns) := by
  have hcontract : request.errno attr env s = firstApplicable (request.contract env s ns) :=
    errno_eq request _ fun id hid => sessionErrno_eq h hattr hquiet hcache hid
  have hinvalid := invalid_iff_of_new hid
  cases request with
  | node inode =>
      change (Request.node inode).errno attr env s = _
      rw [hcontract]
      refine firstApplicable_cons (firstApplicable_cons ?_ _) _
      simp only [Request.OfDirectory, Request.OfLookup, Request.OfOpen, Request.OfRead,
        Request.FetchFails, Request.ChildMissing, false_and, or_false, firstApplicable_false]
      refine firstApplicable_cons ?_ _
      simp only [firstApplicable_false]
  | lookupNode parent name valid =>
      have hwrite : ¬ (Request.lookupNode parent name valid).RequestsWrite := not_false
      have hfine : ¬ (Request.lookupNode parent name valid).Invalid := hinvalid.not.mpr not_false
      simp only [Request.inode] at hid
      rw [Request.poisonedContract, firstApplicable_of_not hwrite, firstApplicable_of_not hfine,
        firstApplicable_of_holds (.inl trivial), Request.poisonedErrno]
      simp only [hid]
      rfl
  | directoryEntries inode offset => exact poisonedErrno_listing h hattr hid
  | openFile inode flags =>
      change (Request.openFile inode flags).errno attr env s = _
      rw [hcontract]
      refine firstApplicable_cons (firstApplicable_cons ?_ _) _
      simp only [Request.OfDirectory, Request.OfLookup, Request.OfOpen, Request.OfRead,
        Request.FetchFails, Request.ChildMissing, false_and, true_and, or_false,
        firstApplicable_false]
      refine firstApplicable_cons ?_ _
      simp only [firstApplicable_false]
      refine firstApplicable_cons (firstApplicable_cons ?_ _) _
      simp only [firstApplicable_false]
  | readBytes inode offset size =>
      have hwrite : ¬ (Request.readBytes inode offset size).RequestsWrite := not_false
      rw [Request.poisonedContract, firstApplicable_of_not hwrite, Request.poisonedErrno]
      by_cases hoffset : offset < 0
      · rw [if_pos hoffset, firstApplicable_of_holds (hinvalid.mpr hoffset)]
      · simp only [Request.inode] at hid
        rw [if_neg hoffset, firstApplicable_of_not (hinvalid.not.mpr hoffset),
          firstApplicable_of_holds (.inr trivial)]
        simp only [hid]
        rfl

theorem poisonedErrno_of_inactive (hholds : s.store.database.Holds ns)
    (hinactive : ¬ s.store.database.Active) (hattr : Quiet attr) (hquiet : Quiet env)
    {request : Request} {id : InodeId} (hid : InodeId.new request.inode = .ok id) :
    request.poisonedErrno attr env s = firstApplicable request.closedContract := by
  have hcontract : request.errno attr env s = firstApplicable request.closedContract := by
    refine errno_eq request _ fun id _ => ?_
    rw [firstApplicable_of_holds trivial]
    exact sessionErrno_of_inactive hholds hinactive hattr hquiet request id
  have hinvalid := invalid_iff_of_new hid
  cases request with
  | node inode => exact hcontract
  | lookupNode parent name valid =>
      have hwrite : ¬ (Request.lookupNode parent name valid).RequestsWrite := not_false
      have hfine : ¬ (Request.lookupNode parent name valid).Invalid := hinvalid.not.mpr not_false
      simp only [Request.inode] at hid
      rw [Request.closedContract, firstApplicable_of_not hwrite, firstApplicable_of_not hfine,
        firstApplicable_of_holds trivial, Request.poisonedErrno]
      simp only [hid]
      rfl
  | directoryEntries inode offset =>
      have hwrite : ¬ (Request.directoryEntries inode offset).RequestsWrite := not_false
      rw [Request.closedContract, firstApplicable_of_not hwrite, Request.poisonedErrno]
      by_cases hoffset : offset < 0
      · rw [if_pos hoffset, firstApplicable_of_holds (hinvalid.mpr hoffset)]
      · rw [if_neg hoffset, firstApplicable_of_not (hinvalid.not.mpr hoffset),
          firstApplicable_of_holds trivial]
        have hattributes :=
          sessionErrno_of_inactive hholds hinactive hattr hattr (.node inode) id
        obtain ⟨e, hget, hnode⟩ | ⟨found, hget, -⟩ := node_cases attr s hid
        · rw [Request.sessionErrno, hget] at hattributes
          simp only [Request.inode] at hnode
          rw [hnode]
          exact hattributes
        · rw [Request.sessionErrno, hget] at hattributes
          cases hattributes
  | openFile inode flags => exact hcontract
  | readBytes inode offset size =>
      have hwrite : ¬ (Request.readBytes inode offset size).RequestsWrite := not_false
      rw [Request.closedContract, firstApplicable_of_not hwrite, Request.poisonedErrno]
      by_cases hoffset : offset < 0
      · rw [if_pos hoffset, firstApplicable_of_holds (hinvalid.mpr hoffset)]
      · simp only [Request.inode] at hid
        rw [if_neg hoffset, firstApplicable_of_not (hinvalid.not.mpr hoffset),
          firstApplicable_of_holds trivial]
        simp only [hid]
        rfl

omit [Uuid] [Sha256] [Prost] in
theorem new_of_findsPoisoned {state : Session.System.State} {request : Request}
    (h : request.findsPoisoned state = true) : ∃ id, InodeId.new request.inode = .ok id := by
  rw [Request.findsPoisoned] at h
  split at h
  · cases h
  · next id hid => exact ⟨id, hid⟩

end Poisoned

/-- In every state that calls of a session can lead to, a request is answered with the first
reason of the contract that applies while the session is active, and once it is closed every
request that passes the checks of its flags and arguments is answered with an I/O error. The
contexts around a failure do not matter. A lock that is poisoned leaves the contract of the
requests that take none, and fails the others. -/
theorem errno_contract [Uuid] [Sha256] [Prost] (rootDigest : Digest) (root : PathBuf)
    (state : Session.System.State)
    (hreached : Session.System.Reached rootDigest root state)
    (attr env : Surroundings) (hattr : Quiet attr) (hquiet : Quiet env)
    (hcache : FromCache root env) :
    (state.session.store.database.Active →
      ∃ ns : Namespace, state.session.store.database.Holds ns ∧ ∀ request : Request,
        (request.findsPoisoned state = false → request.errnoIn attr env state =
          firstApplicable (request.contract env state.session ns)) ∧
        (request.findsPoisoned state = true → request.errnoIn attr env state =
          firstApplicable (request.poisonedContract ns))) ∧
      ((∃ seconds, state.session.store.database.ClosedAt seconds) → ∀ request : Request,
        request.errnoIn attr env state = firstApplicable request.closedContract) ∧
      ∀ (e : SessionError) (inner outer : List String),
        errnoForError (outer.foldr FilesystemError.context
            (.fromSession (inner.foldr SessionError.context e))) =
          errnoForError (.fromSession e) := by
  obtain ⟨-, -, ⟨ns, hholds⟩, -⟩ := Session.System.reached_lifecycle hreached
  refine ⟨fun hactive => ⟨ns, hholds, fun request => ⟨fun hsound => ?_, fun hpoisoned => ?_⟩⟩,
    ?_, errnoForError_contexts⟩
  · rw [Request.errnoIn, hsound, if_neg Bool.false_ne_true]
    exact errno_eq request _ fun id hid =>
      sessionErrno_eq ⟨hholds, hactive⟩ hattr hquiet hcache hid
  · obtain ⟨id, hid⟩ := new_of_findsPoisoned hpoisoned
    rw [Request.errnoIn, if_pos hpoisoned]
    exact poisonedErrno_eq ⟨hholds, hactive⟩ hattr hquiet hcache hid
  · rintro ⟨seconds, hclosed⟩ request
    rw [Request.errnoIn]
    split
    · next hpoisoned =>
        obtain ⟨id, hid⟩ := new_of_findsPoisoned hpoisoned
        exact poisonedErrno_of_inactive hholds hclosed.not_active hattr hquiet hid
    · refine errno_eq request _ fun id _ => ?_
      rw [firstApplicable_of_holds trivial]
      exact sessionErrno_of_inactive hholds hclosed.not_active hattr hquiet request id

namespace Sample

open RemoteFs.Session.Sample (fullDisk fullDisk_fromCache)

theorem fullDisk_quiet (root : PathBuf) : Quiet (fullDisk root) :=
  ⟨fun _ => rfl, fun _ => rfl, fun _ => rfl⟩

def panicked : List Session.System.Move :=
  [.call (.listDirectory .root), .lock 0, .proceed 0 Session.calm 0] ++
    ([.check, .acquire, .enterGate, .recheck, .startPendingBlob none, .panicStream] :
      List Session.Cache.Action).map (.cache 0) ++
    [.proceed 0 Session.calm 0]

end Sample

/-- A session over a cache without room: just opened, and after a load of its root has
panicked. -/
theorem errno_contract_sample :
    letI : Uuid := Session.Sample.uuid
    letI : Sha256 := Session.Sample.sha256
    letI : Prost := Session.Sample.prost
    ∃ (opened panicked : Session.System.State) (ns ns' : Namespace),
      Session.System.Reached Session.Sample.digest [] opened ∧
      Session.System.Reached Session.Sample.digest [] panicked ∧
      (∀ request : Request,
        request.errnoIn (Session.Sample.fullDisk []) (Session.Sample.fullDisk []) opened =
          firstApplicable (request.contract (Session.Sample.fullDisk []) opened.session ns)) ∧
      (Request.directoryEntries 1 0).errnoIn (Session.Sample.fullDisk [])
          (Session.Sample.fullDisk []) panicked =
        firstApplicable ((Request.directoryEntries 1 0).poisonedContract ns') := by
  let _ : Uuid := Session.Sample.uuid
  let _ : Sha256 := Session.Sample.sha256
  let _ : Prost := Session.Sample.prost
  have hexists : ∃ store state, Session.SessionStore.create Session.Sample.quiet
        [.utf8 "session.db"] "67e55044-10b1-426f-9247-bb680e5fe0c8" 7 Session.Sample.digest
        [.utf8 "", .utf8 "mnt"] 3 = .ok store ∧
      Transition.run (Session.System.step [])
        (Session.System.start Session.Sample.digest store fun _ => none) Sample.panicked =
          some state ∧
      state.session = Session.opened Session.Sample.digest store ∧
      (Request.directoryEntries 1 0).findsPoisoned state = true :=
    ⟨_, _, rfl, rfl, rfl, rfl⟩
  obtain ⟨store, state, hcreate, hrun, hsession, hpoisoned⟩ := hexists
  obtain ⟨-, hactive⟩ := Session.create_holds hcreate
  have hopened : Session.System.Reached Session.Sample.digest []
      (Session.System.start Session.Sample.digest store fun _ => none) :=
    ⟨_, _, _, _, _, _, store, _, [], hcreate, rfl⟩
  have hpanicked : Session.System.Reached Session.Sample.digest [] state :=
    ⟨_, _, _, _, _, _, store, _, _, hcreate, hrun⟩
  obtain ⟨hfresh, -⟩ := errno_contract Session.Sample.digest [] _ hopened
    (Session.Sample.fullDisk []) (Session.Sample.fullDisk []) (Sample.fullDisk_quiet [])
    (Sample.fullDisk_quiet []) (Session.Sample.fullDisk_fromCache [])
  obtain ⟨hlater, -⟩ := errno_contract Session.Sample.digest [] _ hpanicked
    (Session.Sample.fullDisk []) (Session.Sample.fullDisk []) (Sample.fullDisk_quiet [])
    (Sample.fullDisk_quiet []) (Session.Sample.fullDisk_fromCache [])
  obtain ⟨ns, -, hfresh⟩ := hfresh hactive
  obtain ⟨ns', -, hlater⟩ := hlater (by rw [hsession]; exact hactive)
  refine ⟨_, state, ns, ns', hopened, hpanicked, fun request => (hfresh request).1 ?_,
    (hlater _).2 hpoisoned⟩
  rw [Request.findsPoisoned]
  split
  · rfl
  · rfl

end Fuse

end RemoteFs
