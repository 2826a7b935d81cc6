import RemoteFs.Session.FacadeSpec

/-!
# A mounted session refines its snapshot

For each operation there is the answer the snapshot gives at a node, a view or a
kind of error that does not mention inode numbers. `Agrees` relates an answer of
the session to it: they are the same, unless SQLite failed or a blob could not be
fetched. A session that loads directories as they are needed agrees with the
snapshot in every state of every run, whatever failed before.
-/

namespace RemoteFs

namespace Session

open RemoteFs.Tree (NodeKind ValidName)
open SortBy (sortBy)

/-- An answer of the session, compared with the answer of the snapshot. Only an
incomplete environment, in which a fetch may fail, excuses an internal error. -/
inductive Agrees {α β : Type} (complete : Prop) (answer : Except ErrorKind β) (view : α → β) :
    Except SessionError α → Prop
  | ok (a : α) (h : answer = .ok (view a)) : Agrees complete answer view (.ok a)
  | error (e : SessionError) (h : answer = .error e.kind) :
      Agrees complete answer view (.error e)
  | sqlite (e : SessionError) (h : e.FromSqlite) : Agrees complete answer view (.error e)
  | fetch (e : SessionError) (h : ¬ complete) (he : e.kind = .internal) :
      Agrees complete answer view (.error e)

theorem Agrees.of_notFound {α β : Type} {complete : Prop} {answer : Except ErrorKind β}
    {view : α → β} {e : SessionError} (h : Agrees complete answer view (.error e))
    (hkind : e.kind = .notFound) : answer = .error .notFound := by
  cases h with
  | error _ h => rw [h, hkind]
  | sqlite _ h =>
      rw [h.kind_eq] at hkind
      cases hkind
  | fetch _ _ he =>
      rw [he] at hkind
      cases hkind

/-! ### Answers of the snapshot -/

section Answers

variable [Sha256] [Prost] (content : Digest → Option Bytes)

def loadAnswer (node : NewRemoteInode) : Except ErrorKind (List NewRemoteInode) :=
  match node.content with
  | .directory digest =>
      match snapshotChildren content digest with
      | none => .error .internal
      | some children =>
          match validateRemoteChildren children with
          | .error _ => .error .internal
          | .ok () => .ok children
  | .file _ => .error .notDirectory
  | .symlink _ => .error .notDirectory

def sortedViews (children : List NewRemoteInode) : List View :=
  (sortBy (fun child => nameKey child.name) children).map NewRemoteInode.view

def listAnswer (node : NewRemoteInode) : Except ErrorKind (List View) :=
  (loadAnswer content node).map sortedViews

def lookupAnswer (node : NewRemoteInode) (name : String) : Except ErrorKind View := do
  let children ← loadAnswer content node
  if ValidName name then
    match children.find? fun child => child.name = name with
    | some child => .ok child.view
    | none => .error .notFound
  else .error .internal

omit [Sha256] [Prost] in
def readAnswer (node : NewRemoteInode) (offset size : ℕ) : Except ErrorKind Bytes :=
  match node.content with
  | .directory _ => .error .isDirectory
  | .symlink _ => .error .internal
  | .file digest =>
      match content digest with
      | some blob => .ok ((blob.drop offset).take size)
      | none => .error .internal

omit [Sha256] [Prost] in
/-- Every fetch of a blob of the store succeeds. -/
structure Complete (env : Surroundings) : Prop where
  blob : ∀ digest bytes, content digest = some bytes →
    ∃ downloaded, env.readBlob digest = .ok (bytes, downloaded)
  range : ∀ digest blob offset size, content digest = some blob →
    ∃ downloaded, env.readRange digest offset size =
      .ok ((blob.drop offset).take size, downloaded)

variable {content}

theorem loadAnswer_eq_ok {node : NewRemoteInode} {digest : Digest}
    {children : List NewRemoteInode} (hcontent : node.content = .directory digest)
    (hsnapshot : snapshotChildren content digest = some children)
    (hvalid : ValidChildren children) : loadAnswer content node = .ok children := by
  have hcheck := (validateRemoteChildren_eq_ok_iff children).mpr hvalid
  simp only [loadAnswer, hcontent, hsnapshot, hcheck]

theorem loadAnswer_eq_internal {node : NewRemoteInode} {digest : Digest}
    (hcontent : node.content = .directory digest)
    (hinvalid : ∀ children, snapshotChildren content digest = some children →
      ¬ ValidChildren children) : loadAnswer content node = .error .internal := by
  cases hsnapshot : snapshotChildren content digest with
  | none => simp only [loadAnswer, hcontent, hsnapshot]
  | some children =>
      have hnot := hinvalid children hsnapshot
      rw [← validateRemoteChildren_eq_ok_iff] at hnot
      cases hcheck : validateRemoteChildren children with
      | ok => exact absurd hcheck hnot
      | error e => simp only [loadAnswer, hcontent, hsnapshot, hcheck]

theorem loadAnswer_eq_notDirectory {node : NewRemoteInode}
    (hkind : node.content.kind ≠ .directory) :
    loadAnswer content node = .error .notDirectory := by
  cases hcontent : node.content with
  | directory digest =>
      rw [hcontent] at hkind
      exact absurd rfl hkind
  | file digest => simp only [loadAnswer, hcontent]
  | symlink target => simp only [loadAnswer, hcontent]

theorem loadAnswer_ne_notFound (node : NewRemoteInode) :
    loadAnswer content node ≠ .error .notFound := by
  rw [loadAnswer]
  repeat' split
  all_goals exact fun h => nomatch h

end Answers

/-! ### Operations agree -/

section Agreement

variable [Uuid] [Sha256] [Prost] {content : Digest → Option Bytes} {env : Surroundings}

omit [Uuid] in
theorem LoadError.agrees {α β : Type} {ns : Namespace} {inode : InodeId} {n : Node}
    {e : SessionError} {answer : Except ErrorKind β} {view : α → β}
    (h : LoadError content env ns inode e) (honest : Honest content env)
    (hfind : ns.find inode = some n)
    (hanswer : ∀ kind, loadAnswer content n.remote = .error kind → answer = .error kind) :
    Agrees (Complete content env) answer view (.error e) := by
  cases h with
  | sqlite h => exact .sqlite e h
  | missing hmissing =>
      rw [hfind] at hmissing
      cases hmissing
  | kind m hm hkind he =>
      rw [hfind, Option.some.injEq] at hm
      refine .error e ?_
      rw [he]
      exact hanswer _ (loadAnswer_eq_notDirectory (hm ▸ hkind))
  | fetch m digest hm hcontent hread =>
      rw [hfind, Option.some.injEq] at hm
      have hinternal := honest.blob_error digest e hread
      by_cases hcomplete : Complete content env
      · refine .error e ?_
        rw [hinternal]
        refine hanswer _ (loadAnswer_eq_internal (hm ▸ hcontent) ?_)
        intro children hchildren
        rw [snapshotChildren] at hchildren
        obtain ⟨bytes, hbytes, -⟩ := Option.bind_eq_some_iff.mp hchildren
        obtain ⟨downloaded, hok⟩ := hcomplete.blob digest bytes hbytes
        rw [hok] at hread
        cases hread
      · exact .fetch e hcomplete hinternal
  | decode m digest bytes hm hcontent hbytes hinvalid he =>
      rw [hfind, Option.some.injEq] at hm
      refine .error e ?_
      rw [he]
      exact hanswer _ (loadAnswer_eq_internal (hm ▸ hcontent) hinvalid)

omit [Uuid] [Sha256] [Prost] in
theorem view_projectInode (n : Node) : (projectInode n.inode).view = n.remote.view := rfl

omit [Uuid] [Sha256] [Prost] in
theorem visible_children (nodes : List Node) :
    (nodes.map Node.inode).filter (fun child => !child.tombstone) = nodes.map Node.inode := by
  rw [List.filter_eq_self]
  intro child hchild
  obtain ⟨n, -, rfl⟩ := List.mem_map.mp hchild
  rfl

omit [Uuid] in
theorem map_remote_children {ns : Namespace} (href : ns.Refines content) {n : Node}
    (hn : n ∈ ns.nodes) (hloaded : n.IsLoaded) :
    ∃ children, loadAnswer content n.remote = .ok children ∧ ValidChildren children ∧
      (ns.children n.id).map Node.remote = sortBy (fun child => nameKey child.name) children ∧
      (ns.below n.id).map Node.remote = children := by
  obtain ⟨digest, hcontent⟩ := content_of_kind hloaded.1
  obtain ⟨children, hsnapshot, hvalid, hbelow⟩ := href n hn digest hcontent hloaded.2
  refine ⟨children, loadAnswer_eq_ok hcontent hsnapshot hvalid, hvalid, ?_, hbelow⟩
  have hsort := SortBy.map_sortBy (fun n : Node => nameKey n.remote.name)
    (fun child : NewRemoteInode => nameKey child.name) Node.remote (ns.below n.id)
    (fun n => rfl)
  rw [← hbelow, ← hsort]
  rfl

omit [Uuid] in
theorem child_eq_some_iff_find {ns : Namespace} (href : ns.Refines content) {n : Node}
    (hn : n ∈ ns.nodes) (hloaded : n.IsLoaded) (name : String) :
    ∃ children, loadAnswer content n.remote = .ok children ∧
      (ns.child n.id name).map Node.remote = children.find? fun child => child.name = name := by
  obtain ⟨children, hanswer, -, -, hbelow⟩ := map_remote_children href hn hloaded
  refine ⟨children, hanswer, ?_⟩
  rw [← hbelow, List.find?_map, Namespace.below, List.find?_filter, Namespace.child]
  congr 2
  funext m
  simp only [Function.comp, Bool.decide_and, Bool.decide_eq_true]

variable {s : Session} {ns : Namespace} (h : s.store.database.Holds ns)
  (hactive : s.store.database.Active)

include h hactive

omit [Sha256] [Prost] in
theorem getInode_agrees {inode : InodeId} {n : Node} (complete : Prop)
    (hfind : ns.find inode = some n) :
    Agrees complete (.ok n.remote.view) Inode.view (getInode env s inode) := by
  rw [getInode]
  obtain ⟨m, hm, hok⟩ | ⟨hnone, -⟩ | ⟨e, herror, hsqlite, -⟩ :=
    getVisibleInode_cases h hactive inode
  · rw [hfind, Option.some.injEq] at hm
    rw [hok, Result.ok_bind, ← hm]
    exact .ok _ (by rw [view_projectInode])
  · rw [hfind] at hnone
    cases hnone
  · rw [herror]
    exact .sqlite e hsqlite

/-- The listing of an inode is the listing of its node. -/
theorem listDirectory_agrees (honest : Honest content env) (href : ns.Refines content)
    {inode : InodeId} {n : Node} (hfind : ns.find inode = some n) :
    Agrees (Complete content env) (listAnswer content n.remote) (List.map Inode.view)
      (listDirectory env s inode).1 := by
  rw [listDirectory]
  obtain ⟨s', ns', hload, -, hholds', hactive', href', hgrows, m, hm, hmid, hloaded⟩ |
    ⟨e, herror, hcause⟩ := ensureDirectoryLoaded_cases h hactive honest href inode
  · rw [hload]
    dsimp only
    obtain ⟨hn, hid⟩ := (ns.find_eq_some_iff inode n).mp hfind
    have hremote := hgrows.remote_eq hn hm (hmid.trans hid.symm)
    obtain ⟨children, hanswer, -, hsorted, -⟩ := map_remote_children href' hm hloaded
    rw [readChildren]
    obtain hread | ⟨e, herror, hsqlite, -⟩ :=
      getDirectoryChildren_of_active hholds' hactive' env.readSqlite inode
    · rw [hread, Result.ok_bind]
      refine .ok _ ?_
      rw [listAnswer, ← hremote, hanswer]
      rw [visible_children, Except.map, sortedViews, ← hsorted, hmid, List.map_map, List.map_map,
        List.map_map]
      rfl
    · rw [herror]
      exact .sqlite e hsqlite
  · rw [herror]
    refine hcause.agrees honest hfind ?_
    intro kind hkind
    rw [listAnswer, hkind]
    rfl

theorem lookupChild_agrees (honest : Honest content env) (href : ns.Refines content)
    {inode : InodeId} {n : Node} (hfind : ns.find inode = some n) (name : String) :
    Agrees (Complete content env) (lookupAnswer content n.remote name) Inode.view
      (lookupChild env s inode name).1 := by
  rw [lookupChild]
  obtain ⟨s', ns', hload, -, hholds', hactive', href', hgrows, m, hm, hmid, hloaded⟩ |
    ⟨e, herror, hcause⟩ := ensureDirectoryLoaded_cases h hactive honest href inode
  · rw [hload]
    dsimp only
    obtain ⟨hn, hid⟩ := (ns.find_eq_some_iff inode n).mp hfind
    have hremote := hgrows.remote_eq hn hm (hmid.trans hid.symm)
    obtain ⟨children, hanswer, hchild⟩ := child_eq_some_iff_find href' hm hloaded name
    rw [hmid] at hchild
    rw [readChild, lookupAnswer, ← hremote, hanswer, Result.ok_bind]
    by_cases hname : ValidName name
    · obtain hread | ⟨e, herror, hsqlite, -⟩ :=
        child_of_active hholds' hactive' env.readSqlite inode name hname
      · rw [hread, Result.ok_bind, if_pos hname, ← hchild]
        cases hfound : ns'.child inode name with
        | none => exact .error _ rfl
        | some c => exact .ok _ rfl
      · rw [herror]
        exact .sqlite e hsqlite
    · obtain ⟨e, herror, hinternal⟩ :=
        child_of_invalid s'.store env.readSqlite inode hname
      rw [herror, if_neg hname]
      exact .error e (by rw [hinternal])
  · rw [herror]
    refine hcause.agrees honest hfind ?_
    intro kind hkind
    rw [lookupAnswer, hkind]
    rfl

omit [Sha256] [Prost] in
theorem readRange_agrees (honest : Honest content env) {inode : InodeId} {n : Node}
    (hfind : ns.find inode = some n) (offset size : ℕ) :
    Agrees (Complete content env) (readAnswer content n.remote offset size) id
      (readRange env s inode offset size).1 := by
  rw [readRange]
  obtain ⟨m, hm, hok⟩ | ⟨hnone, -⟩ | ⟨e, herror, hsqlite, -⟩ :=
    getVisibleInode_cases h hactive inode
  · rw [hfind, Option.some.injEq] at hm
    rw [hok, ← hm]
    dsimp only
    cases hcontent : n.remote.content with
    | directory digest =>
        simp only [readStored, Node.inode, readAnswer, hcontent, RemoteContent.kind, if_true]
        exact .error _ rfl
    | symlink target =>
        simp only [readStored, Node.inode, readAnswer, hcontent, RemoteContent.kind]
        exact .error _ rfl
    | file digest =>
        simp only [readStored, Node.inode, readAnswer, hcontent, RemoteContent.kind]
        rw [if_neg (by decide), if_neg (by decide)]
        cases hread : env.readRange digest offset size with
        | ok read =>
            obtain ⟨bytes, downloaded⟩ := read
            obtain ⟨blob, hblob, hbytes⟩ :=
              honest.range_ok digest offset size bytes downloaded hread
            rw [hblob]
            exact .ok bytes (by rw [hbytes]; rfl)
        | error e =>
            have hinternal := honest.range_error digest offset size e hread
            cases hblob : content digest with
            | none => exact .error e (by rw [hinternal])
            | some blob =>
                refine .fetch e ?_ hinternal
                intro hcomplete
                obtain ⟨downloaded, hread'⟩ := hcomplete.range digest blob offset size hblob
                rw [hread] at hread'
                cases hread'
  · rw [hfind] at hnone
    cases hnone
  · rw [herror]
    exact .sqlite e hsqlite

end Agreement

end Session

end RemoteFs
