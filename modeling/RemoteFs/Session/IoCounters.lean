import RemoteFs.Session.Closed
import RemoteFs.Session.Serving
import RemoteFs.Session.SystemSteps

/-!
# The counters of a session

A counter is increased in a step of its own, after the store call or the call of the cache it
counts. `Accounted` relates the counters to the namespace and to the calls, with the calls that
have still to count on the side of the counters, and `Owed` bounds the downloads by the reports
of the cache in the same way. When no call is in progress nothing is left to count, and
`io_counters_match` reads both off.
-/

namespace RemoteFs

namespace Session

open RemoteFs.Tree (NodeKind)

/-! ### Loaded directories -/

/-- The number of directory inodes whose children were created. -/
def Database.loadedDirectories (db : Database) : ℕ :=
  db.inodes.countP fun row => row.kind = "directory" ∧ row.directoryLoaded = some 1

/-- Whether an inode is a file with a remote digest. -/
def Database.remoteBacked (db : Database) (inode : InodeId) : Bool :=
  db.inodes.any fun row =>
    row.id = inode.sqlite ∧ row.kind = "file" ∧ row.fileRemoteDigest.isSome

def Node.isLoaded (n : Node) : Bool :=
  n.remote.content.kind = .directory ∧ n.loaded = true

namespace Namespace

def loadedCount (ns : Namespace) : ℕ :=
  ns.nodes.countP Node.isLoaded

theorem loadedDirectories_eq {db : Database} {ns : Namespace} (h : db.HoldsNodes ns.nodes) :
    db.loadedDirectories = ns.loadedCount := by
  rw [Database.loadedDirectories, h, List.countP_map, loadedCount]
  refine List.countP_congr fun n _ => ?_
  cases hcontent : n.remote.content <;>
    simp [Node.isLoaded, Node.row, newRow, Node.loadedColumn, hcontent, RemoteContent.kind,
      kindText]

theorem remoteBacked_of_file {db : Database} {ns : Namespace} (h : db.HoldsNodes ns.nodes)
    {n : Node} (hn : n ∈ ns.nodes) {digest : Digest}
    (hcontent : n.remote.content = .file digest) : db.remoteBacked n.id = true := by
  rw [Database.remoteBacked, h, List.any_eq_true]
  refine ⟨n.row, List.mem_map_of_mem hn, ?_⟩
  simp [Node.row, newRow, hcontent, RemoteContent.kind, kindText]

theorem map_markLoaded_eq_set {ns : Namespace} {i : ℕ} {p : Node}
    (hi : ns.nodes[i]? = some p) :
    ns.nodes.map (Node.markLoaded p.id) = ns.nodes.set i (p.markLoaded p.id) := by
  refine List.ext_getElem? fun j => ?_
  rw [List.getElem?_map]
  by_cases hj : i = j
  · subst hj
    rw [Pool.getElem?_set_same hi, hi]
    rfl
  · rw [List.getElem?_set_ne hj]
    cases hn : ns.nodes[j]? with
    | none => rfl
    | some n =>
        have hne : n.id ≠ p.id := by
          intro hid
          have hsame := ns.eq_of_id_eq (List.mem_of_getElem? hn) (List.mem_of_getElem? hi) hid
          rw [hsame] at hn
          exact hj ((List.getElem?_inj (List.getElem?_eq_some_iff.mp hi).1
            (List.Nodup.of_map _ ns.ids_nodup)).mp (hi.trans hn.symm))
        simp [Node.markLoaded, hne]

theorem loadedCount_load {ns : Namespace} {parent : InodeId} {children : List NewRemoteInode}
    (h : ns.Loadable parent children) :
    (ns.load parent children h).loadedCount = ns.loadedCount + 1 := by
  obtain ⟨p, hp, rfl, hkind, hunloaded⟩ := h.directory
  obtain ⟨i, hi⟩ := List.mem_iff_getElem?.mp hp
  have hnew : (newNodes p.id ns.last children).countP Node.isLoaded = 0 := by
    refine List.countP_eq_zero.mpr fun n hn hloaded => ?_
    have hfalse := (newNode_of_mem children ns.last hn).unloaded
    rw [Node.isLoaded, hfalse] at hloaded
    simp at hloaded
  have hcount := Pool.countP_set Node.isLoaded hi (p.markLoaded p.id)
  have hbefore : p.isLoaded = false := by simp [Node.isLoaded, hunloaded]
  have hafter : (p.markLoaded p.id).isLoaded = true := by
    simp [Node.isLoaded, Node.markLoaded, hkind]
  rw [hbefore, hafter, if_neg Bool.false_ne_true, if_pos rfl] at hcount
  have hnodes : (ns.load p.id children h).nodes =
      ns.nodes.map (Node.markLoaded p.id) ++ newNodes p.id ns.last children := rfl
  rw [loadedCount, hnodes, List.countP_append, hnew, map_markLoaded_eq_set hi, loadedCount]
  omega

theorem isLoadedAt_of_load {ns : Namespace} {parent inode : InodeId}
    {children : List NewRemoteInode} (h : ns.Loadable parent children) (hne : inode ≠ parent)
    (hloaded : (ns.load parent children h).IsLoadedAt inode) : ns.IsLoadedAt inode := by
  obtain ⟨n, hn, hid, hkind, hflag⟩ := hloaded
  obtain ⟨m, hm, rfl⟩ | hn := (mem_loadNodes_iff n).mp hn
  · refine ⟨m, hm, hid, hkind, ?_⟩
    have hmid : m.id ≠ parent := fun heq => hne (hid.symm.trans heq)
    simpa [Node.markLoaded, hmid] using hflag
  · rw [(newNode_of_mem children ns.last hn).unloaded] at hflag
    cases hflag

end Namespace

/-! ### Reads of the store -/

section Reads

variable [Uuid] {s : Session} {ns : Namespace} {env : Surroundings} {inode : InodeId}

theorem visible_of_holds (h : s.store.database.Holds ns) {stored : StoreInode}
    (hok : getVisibleInode env s inode = .ok stored) :
    ∃ n, ns.find inode = some n ∧ stored = n.inode := by
  by_cases hactive : s.store.database.Active
  · exact exists_of_getVisibleInode h hactive hok
  · obtain ⟨e, herror, -⟩ := getVisibleInode_of_inactive h hactive env inode
    rw [herror] at hok
    cases hok

theorem not_isLoadedAt_of_digestToLoad (h : s.store.database.Holds ns) {digest : Digest}
    (hdigest : digestToLoad env s inode = .ok (some digest)) : ¬ ns.IsLoadedAt inode := by
  obtain ⟨stored, hvisible, hdigest⟩ := (Result.bind_eq_ok_iff _ _ _).mp hdigest
  obtain ⟨n, hfind, rfl⟩ := visible_of_holds h hvisible
  obtain ⟨hn, hid⟩ := (ns.find_eq_some_iff inode n).mp hfind
  rintro ⟨p, hp, hpid, hkind, hloaded⟩
  rw [ns.eq_of_id_eq hp hn (hpid.trans hid.symm)] at hkind hloaded
  have hdirectory : ¬ n.inode.kind ≠ .directory := not_not.mpr hkind
  rw [if_neg hdirectory, if_pos ((inode_directoryLoaded_eq_iff n hkind).mpr hloaded)] at hdigest
  cases hdigest

theorem backing_of_holds (h : s.store.database.Holds ns) {found : Backing}
    (hbacking : backing env s inode = .ok found) :
    ∃ n ∈ ns.nodes, n.id = inode ∧ ∃ digest, n.remote.content = .file digest ∧
      found = .remote digest := by
  obtain ⟨stored, hvisible, hbacking⟩ := (Result.bind_eq_ok_iff _ _ _).mp hbacking
  obtain ⟨n, hfind, rfl⟩ := visible_of_holds h hvisible
  obtain ⟨hn, hid⟩ := (ns.find_eq_some_iff inode n).mp hfind
  refine ⟨n, hn, hid, ?_⟩
  cases hcontent : n.remote.content with
  | file digest =>
      simp only [Node.inode, hcontent, RemoteContent.kind] at hbacking
      cases hbacking
      exact ⟨digest, rfl, rfl⟩
  | directory digest =>
      simp only [Node.inode, hcontent, RemoteContent.kind] at hbacking
      cases hbacking
  | symlink target =>
      simp only [Node.inode, hcontent, RemoteContent.kind] at hbacking
      cases hbacking

end Reads

/-! ### What the counters add up to -/

namespace IoCounters

def directoryReads (counters : IoCounters) : ℕ :=
  counters.directoryDownloads + counters.directoryCacheHits

def fileReads (counters : IoCounters) : ℕ :=
  counters.fileDownloads + counters.fileCacheHits

def downloads (counters : IoCounters) : ℕ :=
  counters.directoryDownloads + counters.fileDownloads

end IoCounters

theorem recordDirectoryRead_counters (session : Session) (downloaded : Bool) :
    (session.recordDirectoryRead downloaded).counters.directoryReads =
        session.counters.directoryReads + 1 ∧
      (session.recordDirectoryRead downloaded).counters.fileReads = session.counters.fileReads ∧
      (session.recordDirectoryRead downloaded).counters.downloads =
        session.counters.downloads + if downloaded then 1 else 0 := by
  cases downloaded <;>
    simp only [recordDirectoryRead, IoCounters.directoryReads, IoCounters.fileReads,
      IoCounters.downloads, Bool.false_eq_true, if_false, if_true, true_and] <;> omega

theorem recordFileRead_counters (session : Session) (downloaded : Bool) :
    (session.recordFileRead downloaded).counters.directoryReads =
        session.counters.directoryReads ∧
      (session.recordFileRead downloaded).counters.fileReads = session.counters.fileReads + 1 ∧
      (session.recordFileRead downloaded).counters.downloads =
        session.counters.downloads + if downloaded then 1 else 0 := by
  cases downloaded <;>
    simp only [recordFileRead, IoCounters.directoryReads, IoCounters.fileReads,
      IoCounters.downloads, Bool.false_eq_true, if_false, if_true, true_and] <;> omega

namespace System

/-- A load whose children are created and that has still to count. -/
def Phase.creating : Phase → Bool
  | .created _ => true
  | _ => false

/-- A load that has found its directory without children. -/
def Phase.loading : Phase → Bool
  | .fetching _ _ => true
  | .fetched _ _ => true
  | _ => false

def Phase.found : Phase → Bool
  | .reading _ => true
  | .served _ _ => true
  | .returned (.ok _) => true
  | _ => false

def Phase.succeeded : Phase → Bool
  | .returned (.ok _) => true
  | _ => false

def isReadRange : Request → Bool
  | .readRange _ _ _ => true
  | _ => false

def Task.creating (task : Task) : Bool :=
  task.phase.creating

def Task.hasRead (task : Task) : Bool :=
  isReadRange task.request && task.phase.succeeded

/-- A read of a range of a file with a remote digest that has returned bytes. -/
def Task.hasReadRemote (db : Database) (task : Task) : Bool :=
  match task.request with
  | .readRange inode _ _ => db.remoteBacked inode && task.phase.succeeded
  | _ => false

/-- A download that a call knows of, or that the call of the cache it waits for reports, and
that is not counted yet. -/
def Phase.owes (cache : Cache.State) : Phase → Bool
  | .fetching _ call => cache.threads[call]?.any Cache.Call.downloaded
  | .reading call => cache.threads[call]?.any Cache.Call.downloaded
  | .fetched _ downloaded => downloaded
  | .created downloaded => downloaded
  | .served _ downloaded => downloaded
  | _ => false

def Task.owes (cache : Cache.State) (task : Task) : Bool :=
  task.phase.owes cache

/-! ### The namespace and the calls -/

section Accounted

variable [Uuid]

/-- The counters agree with the namespace and the calls. -/
structure Accounted (s : State) (ns : Namespace) : Prop where
  holds : s.session.store.database.Holds ns
  loading : ∀ task ∈ s.tasks, ∀ inode, task.request.directory = some inode →
    task.phase.loading = true → ¬ ns.IsLoadedAt inode
  found : ∀ task ∈ s.tasks, ∀ inode offset size, task.request = .readRange inode offset size →
    task.phase.found = true →
      ∃ n ∈ ns.nodes, n.id = inode ∧ ∃ digest, n.remote.content = .file digest
  directories : s.session.counters.directoryReads + s.tasks.countP Task.creating =
    ns.loadedCount
  files : s.session.counters.fileReads = s.tasks.countP Task.hasRead

variable {s : State} {ns : Namespace} {i : ℕ} {task task' : Task}

theorem Accounted.keep (h : Accounted s ns) (hi : s.tasks[i]? = some task)
    {session : Session} {cache : Cache.State} {poisoned : InodeId → Bool}
    (hholds : session.store.database.Holds ns)
    (hloading : ∀ inode, task'.request.directory = some inode → task'.phase.loading = true →
      ¬ ns.IsLoadedAt inode)
    (hfound : ∀ inode offset size, task'.request = .readRange inode offset size →
      task'.phase.found = true →
        ∃ n ∈ ns.nodes, n.id = inode ∧ ∃ digest, n.remote.content = .file digest)
    (hdirectories : session.counters.directoryReads + (if task'.creating then 1 else 0) =
      s.session.counters.directoryReads + if task.creating then 1 else 0)
    (hfiles : session.counters.fileReads + (if task.hasRead then 1 else 0) =
      s.session.counters.fileReads + if task'.hasRead then 1 else 0) :
    Accounted
      { session := session, cache := cache, poisoned := poisoned,
        tasks := s.tasks.set i task' } ns where
  holds := hholds
  loading := by
    intro other hother
    obtain hold | rfl := List.mem_or_eq_of_mem_set hother
    · exact h.loading other hold
    · exact hloading
  found := by
    intro other hother
    obtain hold | rfl := List.mem_or_eq_of_mem_set hother
    · exact h.found other hold
    · exact hfound
  directories := by
    have hcount := Pool.countP_set Task.creating hi task'
    have hbefore := h.directories
    dsimp only
    omega
  files := by
    have hcount := Pool.countP_set Task.hasRead hi task'
    have hbefore := h.files
    dsimp only
    omega

omit [Uuid] in
theorem guarded_of_directory {request : Request} {inode : InodeId}
    (h : request.directory = some inode) : request.guarded = some inode := by
  cases request <;> first | exact h | cases h

omit [Uuid] in
theorem guarding_of_loading {phase : Phase} (h : phase.loading = true) :
    phase.guarding = true := by
  cases phase <;> first | rfl | cases h

theorem Accounted.create (h : Accounted s ns)
    (hexclusive : ∀ inode, s.tasks.countP (Task.holds inode) ≤ 1)
    {request : Request} {inode : InodeId} (hinode : request.directory = some inode)
    {children fetched : List NewRemoteInode} {downloaded : Bool}
    (hi : s.tasks[i]? = some ⟨request, .fetched fetched downloaded⟩)
    (hload : ns.Loadable inode children) {session : Session} {cache : Cache.State}
    {poisoned : InodeId → Bool}
    (hholds : session.store.database.Holds (ns.load inode children hload))
    (hcounters : session.counters = s.session.counters) :
    Accounted
      { session := session, cache := cache, poisoned := poisoned,
        tasks := s.tasks.set i ⟨request, .created downloaded⟩ }
      (ns.load inode children hload) where
  holds := hholds
  loading := by
    intro other hother directory hdirectory hphase hloaded
    obtain ⟨j, hj⟩ := List.mem_iff_getElem?.mp hother
    obtain ⟨-, rfl⟩ | ⟨hne, hold⟩ := Pool.getElem?_set_cases hj
    · cases hphase
    · -- another load of the same directory would hold its lock
      refine h.loading other (List.mem_of_getElem? hold) directory hdirectory hphase
        (Namespace.isLoadedAt_of_load hload ?_ hloaded)
      rintro rfl
      have hother : other.holds directory = true :=
        decide_eq_true ⟨guarded_of_directory hdirectory, guarding_of_loading hphase⟩
      have hself : Task.holds directory ⟨request, .fetched fetched downloaded⟩ = true :=
        decide_eq_true ⟨guarded_of_directory hinode, rfl⟩
      exact hne (Pool.eq_of_countP_le_one (hexclusive directory) hold hi hother hself)
  found := by
    intro other hother file offset size hrequest hphase
    obtain hold | rfl := List.mem_or_eq_of_mem_set hother
    · obtain ⟨n, hn, hid, digest, hcontent⟩ := h.found other hold file offset size hrequest hphase
      exact ⟨n.markLoaded inode, (Namespace.mem_loadNodes_iff _).mpr (.inl ⟨n, hn, rfl⟩), hid,
        digest, hcontent⟩
    · cases hphase
  directories := by
    have hcount := Pool.countP_set Task.creating hi ⟨request, .created downloaded⟩
    have hbefore := h.directories
    have hold : Task.creating ⟨request, .fetched fetched downloaded⟩ = false := rfl
    have hnew : Task.creating ⟨request, .created downloaded⟩ = true := rfl
    rw [hold, hnew, if_neg Bool.false_ne_true, if_pos rfl] at hcount
    rw [Namespace.loadedCount_load hload, hcounters]
    dsimp only
    omega
  files := by
    have hread : ∀ phase : Phase, phase.succeeded = false →
        Task.hasRead ⟨request, phase⟩ = false := by
      intro phase hphase
      rw [Task.hasRead, hphase, Bool.and_false]
    dsimp only
    rw [hcounters, h.files, Pool.countP_set_eq hi ((hread _ rfl).trans (hread _ rfl).symm)]

omit [Uuid] in
theorem creating_eq_false {phase : Phase} (h : ∀ downloaded, phase ≠ .created downloaded)
    (request : Request) : Task.creating ⟨request, phase⟩ = false := by
  cases phase with
  | created downloaded => exact absurd rfl (h downloaded)
  | _ => rfl

omit [Uuid] in
theorem hasRead_eq_false {phase : Phase} (h : phase.succeeded = false) (request : Request) :
    Task.hasRead ⟨request, phase⟩ = false := by
  rw [Task.hasRead, h, Bool.and_false]

omit [Uuid] in
theorem succeeded_of_finished {phase : Phase} (h : phase.finished = false) :
    phase.succeeded = false := by
  cases phase <;> first | rfl | cases h

theorem Accounted.proceed (h : Accounted s ns)
    (hexclusive : ∀ inode, s.tasks.countP (Task.holds inode) ≤ 1) {env : Surroundings}
    {clock : ℤ} {request : Request} {phase : Phase} {outcome : Outcome}
    (hi : s.tasks[i]? = some ⟨request, phase⟩)
    (hadvances : Advances env clock s.session s.cache request phase outcome)
    (poisoned : InodeId → Bool) :
    ∃ ns', Accounted
      { session := outcome.session, cache := outcome.cache, poisoned := poisoned,
        tasks := s.tasks.set i ⟨request, outcome.phase⟩ } ns' := by
  cases hadvances with
  | settled _ _ result hphase hcreated hresult =>
      refine ⟨ns, h.keep hi h.holds (fun _ _ hloading => absurd hloading Bool.false_ne_true)
        ?_ ?_ ?_⟩
      · intro inode offset size hrequest hfound
        cases result with
        | ok answer => exact absurd rfl (hresult inode offset size answer hrequest)
        | error e => cases hfound
      · rw [creating_eq_false hcreated]
        rfl
      · have hnew : Task.hasRead ⟨request, .returned result⟩ = false := by
          cases request with
          | readRange inode offset size =>
              cases result with
              | ok answer => exact absurd rfl (hresult inode offset size answer rfl)
              | error e => rfl
          | _ => rfl
        rw [hasRead_eq_false (succeeded_of_finished hphase)]
        exact congrArg (fun b : Bool => _ + if b then 1 else 0) hnew.symm
  | overlaid inode offset size path hbacking =>
      obtain ⟨n, -, -, digest, -, hremote⟩ := backing_of_holds h.holds hbacking
      cases hremote
  | present _ inode hinode =>
      exact ⟨ns, h.keep hi h.holds (fun _ _ hloading => absurd hloading Bool.false_ne_true)
        (fun _ _ _ _ hfound => absurd hfound Bool.false_ne_true) rfl rfl⟩
  | requested _ inode hinode digest hdigest =>
      refine ⟨ns, h.keep hi h.holds ?_
        (fun _ _ _ _ hfound => absurd hfound Bool.false_ne_true) rfl ?_⟩
      · intro directory hdirectory _
        rw [hinode, Option.some.injEq] at hdirectory
        exact hdirectory ▸ not_isLoadedAt_of_digestToLoad h.holds hdigest
      · rfl
  | fetched _ inode hinode digest call bytes children downloaded hcall =>
      have hloading := h.loading _ (List.mem_of_getElem? hi)
      exact ⟨ns, h.keep hi h.holds (fun directory hdirectory _ =>
          hloading directory hdirectory rfl)
        (fun _ _ _ _ hfound => absurd hfound Bool.false_ne_true) rfl rfl⟩
  | crashed _ _ call hphase =>
      have hcreated : ∀ downloaded, phase ≠ .created downloaded := by
        rintro downloaded rfl
        cases hphase
      have hunfinished : phase.succeeded = false := by
        cases phase <;> first | rfl | cases hphase
      refine ⟨ns, h.keep hi h.holds (fun _ _ hloading => absurd hloading Bool.false_ne_true)
        (fun _ _ _ _ hfound => absurd hfound Bool.false_ne_true) ?_ ?_⟩
      · rw [creating_eq_false hcreated]
        rfl
      · rw [hasRead_eq_false hunfinished, hasRead_eq_false rfl]
  | rejected _ inode hinode children downloaded e store hcall =>
      have hstore : store = s.session.store := by
        obtain ⟨e', hcall', -⟩ | ⟨-, -, hcall'⟩ | ⟨hload, db, -, hcall', -⟩ :=
          getOrCreateRemoteDirChildren_cases h.holds env.loadSqlite inode children
        · rw [hcall'] at hcall
          exact (Prod.mk.inj hcall).2.symm
        · rw [hcall'] at hcall
          cases hcall
        · rw [hcall'] at hcall
          cases hcall
      subst hstore
      exact ⟨ns, h.keep hi h.holds (fun _ _ hloading => absurd hloading Bool.false_ne_true)
        (fun _ _ _ _ hfound => absurd hfound Bool.false_ne_true) rfl (by
          rw [hasRead_eq_false rfl, hasRead_eq_false rfl]; rfl)⟩
  | created _ inode hinode children downloaded stored store hcall =>
      obtain ⟨e', hcall', -⟩ | ⟨-, hloaded, -⟩ | ⟨hload, db, -, hcall', hholds, -⟩ :=
        getOrCreateRemoteDirChildren_cases h.holds env.loadSqlite inode children
      · rw [hcall'] at hcall
        cases hcall
      · exact absurd hloaded (h.loading _ (List.mem_of_getElem? hi) inode hinode rfl)
      · rw [hcall'] at hcall
        cases hcall
        exact ⟨_, h.create hexclusive hinode hi hload hholds rfl⟩
  | recorded _ inode hinode downloaded =>
      obtain ⟨hdirectories, hfiles, -⟩ := recordDirectoryRead_counters s.session downloaded
      refine ⟨ns, h.keep hi h.holds (fun _ _ hloading => absurd hloading Bool.false_ne_true)
        (fun _ _ _ _ hfound => absurd hfound Bool.false_ne_true) ?_ ?_⟩
      · exact hdirectories
      · rw [hasRead_eq_false rfl, hasRead_eq_false rfl]
        exact hfiles
  | asked inode offset size digest hbacking =>
      obtain ⟨n, hn, hid, digest, hcontent, -⟩ := backing_of_holds h.holds hbacking
      refine ⟨ns, h.keep hi h.holds (fun _ _ hloading => absurd hloading Bool.false_ne_true)
        ?_ rfl rfl⟩
      intro file offset' size' hrequest _
      cases hrequest
      exact ⟨n, hn, hid, digest, hcontent⟩
  | served inode offset size call bytes downloaded hcall =>
      have hfound := h.found _ (List.mem_of_getElem? hi)
      exact ⟨ns, h.keep hi h.holds (fun _ _ hloading => absurd hloading Bool.false_ne_true)
        (fun file offset' size' hrequest _ => hfound file offset' size' hrequest rfl) rfl rfl⟩
  | counted inode offset size bytes downloaded =>
      have hfound := h.found _ (List.mem_of_getElem? hi)
      obtain ⟨hdirectories, hfiles, -⟩ := recordFileRead_counters s.session downloaded
      exact ⟨ns, h.keep hi h.holds (fun _ _ hloading => absurd hloading Bool.false_ne_true)
        (fun file offset' size' hrequest _ => hfound file offset' size' hrequest rfl)
        hdirectories hfiles⟩
  | closed =>
      have hholds : (s.session.store.close env.loadSqlite clock).2.database.Holds ns := by
        obtain ⟨e, hcall, -⟩ | ⟨db, hcall, hclosed, -⟩ :=
          close_cases h.holds env.loadSqlite clock
        · rw [hcall]
          exact h.holds
        · rw [hcall]
          exact hclosed
      exact ⟨ns, h.keep hi hholds (fun _ _ hloading => absurd hloading Bool.false_ne_true)
        (fun _ _ _ hrequest _ => nomatch hrequest) rfl rfl⟩

variable [Sha256] [Prost]

theorem Accounted.step {root : PathBuf} {s' : State} (h : Accounted s ns)
    (hexclusive : ∀ inode, s.tasks.countP (Task.holds inode) ≤ 1) (hstep : Steps root s s') :
    ∃ ns', Accounted s' ns' := by
  cases hstep with
  | call request =>
      refine ⟨ns, h.holds, fun task htask => ?_, fun task htask => ?_, ?_, ?_⟩
      · obtain hold | hnew := List.mem_append.mp htask
        · exact h.loading task hold
        · rw [List.mem_singleton.mp hnew]
          exact fun _ _ hloading => absurd hloading Bool.false_ne_true
      · obtain hold | hnew := List.mem_append.mp htask
        · exact h.found task hold
        · rw [List.mem_singleton.mp hnew]
          exact fun _ _ _ _ hfound => absurd hfound Bool.false_ne_true
      · rw [List.countP_append]
        exact h.directories
      · have hnew : Task.hasRead ⟨request, .called⟩ = false := hasRead_eq_false rfl request
        simpa [List.countP_append, hnew] using h.files
  | lock i request inode hi hinode hfree hpoisoned =>
      exact ⟨ns, h.keep hi h.holds (fun _ _ hloading => absurd hloading Bool.false_ne_true)
        (fun _ _ _ _ hfound => absurd hfound Bool.false_ne_true) rfl (by
          rw [hasRead_eq_false rfl, hasRead_eq_false rfl])⟩
  | refused i request inode hi hinode hpoisoned =>
      exact ⟨ns, h.keep hi h.holds (fun _ _ hloading => absurd hloading Bool.false_ne_true)
        (fun _ _ _ _ hfound => absurd hfound Bool.false_ne_true) rfl (by
          rw [hasRead_eq_false rfl, hasRead_eq_false rfl])⟩
  | proceed i env clock request phase outcome hi hadvance =>
      exact h.proceed hexclusive hi (advances_of_advance hadvance) _
  | cache call action cache hcache =>
      exact ⟨ns, h.holds, h.loading, h.found, h.directories, h.files⟩

omit [Sha256] [Prost] in
theorem accounted_start {rootDigest : Digest} {store : SessionStore}
    (hholds : store.database.Holds (Namespace.start rootDigest))
    (files : PathBuf → Option Bytes) :
    Accounted (start rootDigest store files) (Namespace.start rootDigest) where
  holds := hholds
  loading := fun task htask => by cases htask
  found := fun task htask => by cases htask
  directories := rfl
  files := rfl

end Accounted

/-! ### Downloads -/

/-- The downloads counted and those still owed were all reported by calls of the cache. -/
def Owed (s : State) : Prop :=
  s.session.counters.downloads + s.tasks.countP (Task.owes s.cache) ≤
    s.cache.threads.countP Cache.Call.downloaded

section Owed

variable [Uuid] {env : Surroundings} {clock : ℤ} {session : Session} {cache : Cache.State}
  {request : Request} {phase : Phase} {outcome : Outcome}

omit [Uuid] in
theorem any_downloaded_of_cachePhase {call : ℕ} {bytes : Bytes} {downloaded : Bool}
    (h : cachePhase cache call = some (.returned (.ok (bytes, downloaded)))) :
    cache.threads[call]?.any Cache.Call.downloaded = downloaded := by
  obtain ⟨thread, hthread, hphase⟩ := Option.map_eq_some_iff.mp h
  rw [hthread, Option.any_some, Cache.Call.downloaded, hphase]

omit [Uuid] in
theorem any_downloaded_begun (digest : Digest) (asked : Cache.Request) :
    (begun cache digest asked).threads[cache.threads.length]?.any Cache.Call.downloaded =
      false := by
  rw [begun, Pool.getElem?_concat]
  rfl

/-- A step counts a download when it stops to owe it. -/
theorem Advances.downloads (h : Advances env clock session cache request phase outcome) :
    outcome.session.counters.downloads + (if outcome.phase.owes outcome.cache then 1 else 0) ≤
      session.counters.downloads + if phase.owes cache then 1 else 0 := by
  cases h with
  | requested _ inode hinode digest hdigest =>
      simp only [Outcome.unpoisoned, Phase.owes, any_downloaded_begun]
      exact Nat.le_add_right _ _
  | asked inode offset size digest hbacking =>
      simp only [Outcome.unpoisoned, Phase.owes, any_downloaded_begun]
      exact Nat.le_add_right _ _
  | fetched _ inode hinode digest call bytes children downloaded hcall =>
      simp only [Outcome.unpoisoned, Phase.owes, any_downloaded_of_cachePhase hcall]
      exact le_refl _
  | served inode offset size call bytes downloaded hcall =>
      simp only [Outcome.unpoisoned, Phase.owes, any_downloaded_of_cachePhase hcall]
      exact le_refl _
  | created _ inode hinode children downloaded => exact le_refl _
  | recorded _ inode hinode downloaded =>
      exact (recordDirectoryRead_counters session downloaded).2.2.le
  | counted inode offset size bytes downloaded =>
      exact (recordFileRead_counters session downloaded).2.2.le
  | _ => exact Nat.le_add_right _ _

omit [Uuid] in
theorem owes_begun {task : Task}
    (hmade : ∀ call, task.phase.awaited = some call → call < cache.threads.length)
    (digest : Digest) (asked : Cache.Request) :
    task.owes (begun cache digest asked) = task.owes cache := by
  have hkept : ∀ call, call < cache.threads.length →
      (begun cache digest asked).threads[call]? = cache.threads[call]? :=
    fun call hlt => List.getElem?_append_left hlt
  rw [Task.owes, Task.owes]
  cases hphase : task.phase with
  | fetching digest call =>
      rw [Phase.owes, Phase.owes, hkept call (hmade call (by rw [hphase]; rfl))]
  | reading call =>
      rw [Phase.owes, Phase.owes, hkept call (hmade call (by rw [hphase]; rfl))]
  | _ => rfl

omit [Uuid] in
theorem countP_downloaded_begun (digest : Digest) (asked : Cache.Request) :
    (begun cache digest asked).threads.countP Cache.Call.downloaded =
      cache.threads.countP Cache.Call.downloaded := by
  rw [begun, List.countP_append]
  rfl

omit [Uuid] in
/-- A step of a call of the cache adds a debt only to the task that waits for it. -/
theorem owes_of_set {task : Task} {call : ℕ} {thread thread' : Cache.Call}
    (hthread : cache.threads[call]? = some thread) {shared : Cache.Shared}
    (h : task.owes { shared := shared, threads := cache.threads.set call thread' } = true) :
    task.owes cache = true ∨ (task.awaits call && thread'.downloaded) = true := by
  have hset : ∀ other, (cache.threads.set call thread')[other]?.any Cache.Call.downloaded = true →
      cache.threads[other]?.any Cache.Call.downloaded = true ∨
        other = call ∧ thread'.downloaded = true := by
    intro other hother
    by_cases hsame : other = call
    · rw [hsame, Pool.getElem?_set_same hthread, Option.any_some] at hother
      exact .inr ⟨hsame, hother⟩
    · rw [List.getElem?_set_ne (Ne.symm hsame)] at hother
      exact .inl hother
  have hwaiting : ∀ other, task.phase.awaited = some other →
      (other = call ∧ thread'.downloaded = true) →
        (task.awaits call && thread'.downloaded) = true := by
    rintro other hawaited ⟨rfl, hdownloaded⟩
    rw [Task.awaits, hawaited, hdownloaded]
    simp
  rw [Task.owes] at h ⊢
  cases hphase : task.phase with
  | fetching digest other =>
      rw [hphase] at h
      exact (hset other h).imp id (hwaiting other (by rw [hphase]; rfl))
  | reading other =>
      rw [hphase] at h
      exact (hset other h).imp id (hwaiting other (by rw [hphase]; rfl))
  | fetched children downloaded =>
      rw [hphase] at h
      exact .inl h
  | created downloaded =>
      rw [hphase] at h
      exact .inl h
  | served bytes downloaded =>
      rw [hphase] at h
      exact .inl h
  | _ =>
      rw [hphase] at h
      cases h

omit [Uuid] in
theorem Owed.advance [Sha256] {root : PathBuf} {s : State} (h : Owed s)
    (hwaiting : ∀ call, s.tasks.countP (Task.awaits call) ≤ 1) {call : ℕ}
    {action : Cache.Action} {shared : Cache.Shared} {thread thread' : Cache.Call}
    (hthread : s.cache.threads[call]? = some thread)
    (hact : Cache.advance root call action s.cache.shared thread = some (shared, thread')) :
    Owed { s with
      cache := { shared := shared, threads := s.cache.threads.set call thread' } } := by
  have hreports := Pool.countP_set Cache.Call.downloaded hthread thread'
  rw [Cache.not_downloaded_of_advance hact, if_neg Bool.false_ne_true] at hreports
  have hdebts : s.tasks.countP (Task.owes
      { shared := shared, threads := s.cache.threads.set call thread' }) ≤
        s.tasks.countP (Task.owes s.cache) +
          s.tasks.countP fun task => task.awaits call && thread'.downloaded :=
    Pool.countP_le_add fun task _ => owes_of_set hthread
  have hone : (s.tasks.countP fun task => task.awaits call && thread'.downloaded) ≤
      if thread'.downloaded then 1 else 0 := by
    cases thread'.downloaded with
    | true => simpa using hwaiting call
    | false => simp
  unfold Owed at h ⊢
  dsimp only
  omega

theorem Owed.step [Sha256] [Prost] {root : PathBuf} {s s' : State} (h : Owed s)
    (hwaiting : ∀ call, s.tasks.countP (Task.awaits call) ≤ 1)
    (hmade : ∀ task ∈ s.tasks, ∀ call, task.phase.awaited = some call →
      call < s.cache.threads.length) (hstep : Steps root s s') : Owed s' := by
  have hquiet : ∀ (i : ℕ) (request : Request) (phase phase' : Phase),
      s.tasks[i]? = some ⟨request, phase⟩ → phase.owes s.cache = false →
        phase'.owes s.cache = false →
          (s.tasks.set i ⟨request, phase'⟩).countP (Task.owes s.cache) =
            s.tasks.countP (Task.owes s.cache) :=
    fun i request phase phase' hi hold hnew => Pool.countP_set_eq hi (hnew.trans hold.symm)
  cases hstep with
  | call request =>
      have hnew : Task.owes s.cache ⟨request, .called⟩ = false := rfl
      simpa [Owed, List.countP_append, hnew] using h
  | lock i request inode hi hinode hfree hpoisoned =>
      rw [Owed, hquiet i request _ _ hi rfl rfl]
      exact h
  | refused i request inode hi hinode hpoisoned =>
      rw [Owed, hquiet i request _ _ hi rfl rfl]
      exact h
  | proceed i env clock request phase outcome hi hadvance =>
      have hadvances := advances_of_advance hadvance
      have hcounted := hadvances.downloads
      have hset := Pool.countP_set (Task.owes outcome.cache) hi ⟨request, outcome.phase⟩
      have hothers : s.tasks.countP (Task.owes outcome.cache) =
          s.tasks.countP (Task.owes s.cache) ∧
          Task.owes outcome.cache ⟨request, phase⟩ = phase.owes s.cache ∧
          outcome.cache.threads.countP Cache.Call.downloaded =
            s.cache.threads.countP Cache.Call.downloaded := by
        obtain ⟨hcache, -⟩ | ⟨digest, asked, hcache, -⟩ := hadvances.cache_cases
        · rw [hcache]
          exact ⟨rfl, rfl, rfl⟩
        · rw [hcache]
          refine ⟨List.countP_congr fun task htask => ?_, ?_, countP_downloaded_begun digest asked⟩
          · rw [owes_begun (hmade task htask)]
          · exact owes_begun (hmade _ (List.mem_of_getElem? hi)) digest asked
      obtain ⟨hsame, hself, hreports⟩ := hothers
      rw [hsame, hself] at hset
      unfold Owed at h ⊢
      dsimp only
      rw [hreports]
      change _ + (if outcome.phase.owes outcome.cache then 1 else 0) ≤ _ at hcounted
      have hnew : Task.owes outcome.cache ⟨request, outcome.phase⟩ =
          outcome.phase.owes outcome.cache := rfl
      rw [hnew] at hset
      omega
  | cache call action cache hcache =>
      obtain ⟨arguments, hmove, -⟩ | ⟨j, act, thread, shared, thread', hmove, hthread, hact, rfl⟩ :=
        Pool.step_cases hcache
      · cases hmove
      · exact h.advance hwaiting hthread hact

end Owed

/-! ### Runs -/

section Runs

variable [Uuid] [Sha256] [Prost]

/-- What every interleaving keeps. -/
theorem reached_accounted {rootDigest : Digest} {root : PathBuf} {s : State}
    (h : Reached rootDigest root s) :
    (∃ initial, Orderly root initial s) ∧ (∃ ns, Accounted s ns) ∧ Owed s := by
  obtain ⟨_, _, _, _, _, _, store, files, moves, hcreate, hrun⟩ := h
  obtain ⟨hholds, -⟩ := create_holds hcreate
  have hstep : ∀ s move s', (Orderly root files s ∧ (∃ ns, Accounted s ns) ∧ Owed s) →
      step root s move = some s' →
        Orderly root files s' ∧ (∃ ns, Accounted s' ns) ∧ Owed s' := by
    rintro s move s' ⟨horderly, ⟨ns, haccounted⟩, howed⟩ hmove
    have hsteps := steps_of_step hmove
    exact ⟨horderly.step hsteps, haccounted.step horderly.exclusive hsteps,
      howed.step horderly.waiting horderly.made hsteps⟩
  obtain ⟨horderly, haccounted, howed⟩ := Transition.run_invariant hstep moves
    (start rootDigest store files) s
    ⟨orderly_start root rootDigest store files, ⟨_, accounted_start hholds files⟩, le_refl _⟩ hrun
  exact ⟨⟨files, horderly⟩, haccounted, howed⟩

omit [Uuid] [Sha256] [Prost] in
theorem countP_creating_of_quiescent {s : State} (h : s.Quiescent) :
    s.tasks.countP Task.creating = 0 := by
  refine List.countP_eq_zero.mpr fun task htask hcreating => ?_
  have hfinished := h task htask
  rw [Task.creating] at hcreating
  cases hphase : task.phase with
  | created downloaded =>
      rw [hphase] at hfinished
      cases hfinished
  | _ =>
      rw [hphase] at hcreating
      cases hcreating

omit [Sha256] [Prost] in
theorem Accounted.countP_hasReadRemote {s : State} {ns : Namespace} (h : Accounted s ns) :
    s.tasks.countP (Task.hasReadRemote s.session.store.database) =
      s.tasks.countP Task.hasRead := by
  refine List.countP_congr fun task htask => ?_
  rw [Task.hasReadRemote, Task.hasRead]
  cases hrequest : task.request with
  | readRange inode offset size =>
      rw [isReadRange, Bool.true_and, Bool.and_eq_true, and_iff_right_iff_imp]
      intro hsucceeded
      have hphase : task.phase.found = true := by
        cases hphase : task.phase with
        | returned result =>
            rw [hphase] at hsucceeded
            cases result with
            | ok answer => rfl
            | error e => cases hsucceeded
        | _ =>
            rw [hphase] at hsucceeded
            cases hsucceeded
      obtain ⟨n, hn, rfl, digest, hcontent⟩ :=
        h.found task htask inode offset size hrequest hphase
      exact Namespace.remoteBacked_of_file h.holds.nodes hn hcontent
  | _ => rfl

end Runs

/-- In every state of every interleaving in which no call is in progress the counters of
directory reads add up to the loaded directories, those of file reads to the reads of files with
a remote digest that returned bytes, and the downloads are at most the digests that were
admitted to the cache. -/
theorem io_counters_match [Uuid] [Sha256] [Prost] (rootDigest : Digest) (root : PathBuf)
    (s : State) (hreached : Reached rootDigest root s) (hquiescent : s.Quiescent) :
    s.session.counters.directoryDownloads + s.session.counters.directoryCacheHits =
        s.session.store.database.loadedDirectories ∧
      s.session.counters.fileDownloads + s.session.counters.fileCacheHits =
        s.tasks.countP (Task.hasReadRemote s.session.store.database) ∧
      s.session.counters.directoryDownloads + s.session.counters.fileDownloads ≤
        (Cache.admittedDigests s.cache).length := by
  obtain ⟨⟨initial, horderly⟩, ⟨ns, haccounted⟩, howed⟩ := reached_accounted hreached
  refine ⟨?_, ?_, ?_⟩
  · have hdirectories := haccounted.directories
    rw [countP_creating_of_quiescent hquiescent, Nat.add_zero] at hdirectories
    rw [Namespace.loadedDirectories_eq haccounted.holds.nodes]
    exact hdirectories
  · rw [haccounted.countP_hasReadRemote]
    exact haccounted.files
  · exact ((Nat.le_add_right _ _).trans howed).trans horderly.cache.downloaded_le

namespace Sample

@[reducible] def prost : Prost where
  encodeToVec _ := [104, 105]
  decode _ := .ok { files := [], directories := [], symlinks := [], nodeProperties := none }

/-- A call that lists the root, the call of the cache it makes, and its end. -/
def moves : List Move :=
  [.call (.listDirectory .root), .lock 0, .proceed 0 calm 0] ++
    ([.check, .acquire, .enterGate, .recheck, .startPendingBlob none, .write [104, 105] (.ok 2),
      .finishStream none, .admitPendingBlob none, .unlock, .release,
      .read Cache.Sample.reads] : List Cache.Action).map (.cache 0) ++
    List.replicate 4 (.proceed 0 calm 0)

theorem moves_counted :
    letI : Uuid := Session.Sample.uuid
    letI : Sha256 := Cache.Sample.sha256
    letI : Prost := prost
    ((SessionStore.create Session.Sample.quiet [.utf8 "session.db"]
        "67e55044-10b1-426f-9247-bb680e5fe0c8" 7 Cache.Sample.digest
        [.utf8 "", .utf8 "mnt"] 3).toOption.bind fun store =>
      (Transition.run (step []) (start Cache.Sample.digest store fun _ => none) moves).map
        fun s => (s.session.counters, s.tasks.all fun task => task.phase.finished)) =
      some (⟨1, 0, 0, 0⟩, true) := by
  decide +kernel

theorem moves_counters :
    letI : Uuid := Session.Sample.uuid
    letI : Sha256 := Cache.Sample.sha256
    letI : Prost := prost
    ∃ store s, SessionStore.create Session.Sample.quiet [.utf8 "session.db"]
        "67e55044-10b1-426f-9247-bb680e5fe0c8" 7 Cache.Sample.digest [.utf8 "", .utf8 "mnt"] 3 =
          .ok store ∧
      Transition.run (step []) (start Cache.Sample.digest store fun _ => none) moves = some s ∧
      s.session.counters = ⟨1, 0, 0, 0⟩ ∧
      (s.tasks.all fun task => task.phase.finished) = true := by
  obtain ⟨store, hstore, hcounted⟩ := Option.bind_eq_some_iff.mp moves_counted
  obtain ⟨s, hrun, hcounted⟩ := Option.map_eq_some_iff.mp hcounted
  obtain ⟨hcounters, hfinished⟩ := Prod.mk.inj hcounted
  have hcreated : ∀ created : Except SessionError SessionStore,
      created.toOption = some store → created = .ok store := by
    rintro (e | created) h
    · cases h
    · cases h
      rfl
  exact ⟨store, s, hcreated _ hstore, hrun, hcounters, hfinished⟩

end Sample

/-- A listing of the root that downloaded its blob. -/
theorem io_counters_match_sample :
    letI : Uuid := Session.Sample.uuid
    letI : Sha256 := Cache.Sample.sha256
    letI : Prost := Sample.prost
    ∃ s, Reached Cache.Sample.digest [] s ∧ s.Quiescent ∧
      s.session.store.database.loadedDirectories = 1 ∧
      1 ≤ (Cache.admittedDigests s.cache).length := by
  let _ : Uuid := Session.Sample.uuid
  let _ : Sha256 := Cache.Sample.sha256
  let _ : Prost := Sample.prost
  obtain ⟨store, s, hcreate, hrun, hcounters, hfinished⟩ := Sample.moves_counters
  have hreached : Reached Cache.Sample.digest [] s :=
    ⟨_, _, _, _, _, _, store, fun _ => none, Sample.moves, hcreate, hrun⟩
  have hquiescent : s.Quiescent := fun task htask => List.all_eq_true.mp hfinished task htask
  obtain ⟨hdirectories, -, hdownloads⟩ :=
    io_counters_match Cache.Sample.digest [] s hreached hquiescent
  rw [hcounters] at hdirectories hdownloads
  exact ⟨s, hreached, hquiescent, hdirectories.symm, hdownloads⟩

end System

end Session

end RemoteFs
