import RemoteFs.Session.Frozen
import RemoteFs.Session.Settled

/-!
# Lookups return one inode for good

The calls of the system and direct calls of the store run interleaved: an event is a move of the
system or a call of the store, which may propose any children for any directory. Along a run of
events the namespace extends, so a lookup that found a child finds it in every later state in
which the session is active. Its directory is settled from then on, so no later lookup finds the
lock of the directory poisoned.
-/

namespace RemoteFs

namespace Session

section Reads

variable [Uuid] [Sha256] [Prost] {session : Session} {ns : Namespace}
  (h : session.store.database.Holds ns)

include h

omit [Sha256] [Prost] in
theorem readChild_eq_ok {env : Surroundings} {parent : InodeId} {name : String}
    {entry : Inode} (hread : readChild env session parent name = .ok entry) :
    ∃ n, ns.child parent name = some n ∧ projectInode n.inode = entry := by
  by_cases hactive : session.store.database.Active
  · obtain ⟨n, hn, hentry⟩ := readChild_of_active h hactive hread
    exact ⟨n, hn, hentry.symm⟩
  · obtain ⟨e, herror, -⟩ :=
      ensureActive_of_inactive h hactive env.readSqlite
    rw [readChild, SessionStore.child, herror] at hread
    cases hname : validateInodeName name with
    | ok =>
        rw [hname] at hread
        cases hread
    | error e =>
        rw [hname] at hread
        cases hread

variable (hactive : session.store.database.Active)

include hactive

omit [Sha256] [Prost] in
theorem readChild_of_child {env : Surroundings} (hquiet : env.readSqlite.Quiet)
    {parent : InodeId} {name : String} {n : Node} (hn : ns.child parent name = some n) :
    readChild env session parent name = .ok (projectInode n.inode) := by
  obtain ⟨hmem, hparent, hname⟩ := ns.of_child_eq_some hn
  have hvalid : RemoteFs.Tree.ValidName name := by
    obtain ⟨-, hroot, -⟩ | ⟨-, -, hvalid⟩ := (ns.valid n hmem).placed
    · rw [hroot] at hparent
      cases hparent
    · rwa [hname] at hvalid
  obtain hchild | ⟨e, -, -, hloud⟩ :=
    child_of_active h hactive env.readSqlite parent name hvalid
  · rw [readChild, hchild, hn]
    rfl
  · exact absurd hquiet hloud

theorem childrenToLoad_of_child {env : Surroundings} (hquiet : env.inodeSqlite.Quiet)
    {parent : InodeId} {name : String} {n : Node} (hn : ns.child parent name = some n) :
    childrenToLoad env session parent = .ok none := by
  obtain ⟨hmem, hparent, -⟩ := ns.of_child_eq_some hn
  obtain ⟨p, hp, hid, ⟨hkind, hloaded⟩, -⟩ := ns.parents n hmem parent hparent
  have hfind : ns.find parent = some p := (ns.find_eq_some_iff parent p).mpr ⟨hp, hid⟩
  have hdirectory : ¬ p.inode.kind ≠ .directory := not_not.mpr hkind
  rw [childrenToLoad, getVisibleInode_of_find h hactive hquiet hfind, Result.ok_bind,
    if_neg hdirectory, if_pos ((inode_directoryLoaded_eq_iff p hkind).mpr hloaded)]

theorem lookupChild_of_child {env : Surroundings} (hinode : env.inodeSqlite.Quiet)
    (hread : env.readSqlite.Quiet) {parent : InodeId} {name : String} {n : Node}
    (hn : ns.child parent name = some n) :
    lookupChild env session parent name = (.ok (projectInode n.inode), session) := by
  rw [lookupChild, ensureDirectoryLoaded, childrenToLoad_of_child h hactive hinode hn]
  change (readChild env session parent name, session) = _
  rw [readChild_of_child h hactive hread hn]

end Reads

namespace System

inductive Event where
  | move (move : Move)
  | store (call : StoreCall)

/-- No statement of the reads of a call fails in SQLite. -/
def Event.Quiet : Event → Prop
  | .move (.proceed _ env _) => env.inodeSqlite.Quiet ∧ env.readSqlite.Quiet
  | .move _ => True
  | .store _ => True

def Recalls (ns : Namespace) (task : Task) : Prop :=
  ∀ parent name entry,
    task = ⟨.lookupChild parent name, .returned (.ok (.inode entry))⟩ →
    ∃ n, ns.child parent name = some n ∧ projectInode n.inode = entry

/-- A lookup of a child of a settled directory is on its way to that child. -/
def Prompt (ns : Namespace) (settled : InodeId → Prop) (task : Task) : Prop :=
  ∀ parent name n, task.request = .lookupChild parent name → settled parent →
    ns.child parent name = some n →
    task.phase = .called ∨ task.phase = .locked ∨ task.phase = .loaded ∨
      task.phase = .returned (.ok (.inode (projectInode n.inode)))

section Events

variable [Uuid] [Sha256] [Prost] {root : PathBuf}

def happen (root : PathBuf) (s : State) : Event → Option State
  | .move move => step root s move
  | .store call =>
      some { s with session := { s.session with store := s.session.store.after call } }

/-- A state reached from an open session by any interleaving of events. -/
def Happened (rootDigest : Digest) (root : PathBuf) (s : State) : Prop :=
  ∃ sqlite databasePath sessionId daemonPid mountpoint clock store files events,
    SessionStore.create sqlite databasePath sessionId daemonPid rootDigest mountpoint clock =
        .ok store ∧
      Transition.run (happen root) (start rootDigest store files) events = some s

omit [Sha256] [Prost] in
theorem after_of_inactive {store : SessionStore} {ns : Namespace}
    (h : store.database.Holds ns) (hinactive : ¬ store.database.Active) (call : StoreCall) :
    store.after call = store := by
  cases call with
  | inode => rfl
  | child => rfl
  | getDirectoryChildren => rfl
  | getOrCreateRemoteDirChildren sqlite parent children =>
      obtain ⟨e, hcall⟩ :=
        getOrCreateRemoteDirChildren_of_inactive h hinactive sqlite parent children
      rw [SessionStore.after, hcall]
  | close sqlite clock =>
      obtain ⟨e, hcall, -⟩ := close_of_inactive h hinactive sqlite clock
      rw [SessionStore.after, hcall]

omit [Sha256] [Prost] in
theorem Advances.extends {env : Surroundings} {clock : ℤ} {session : Session}
    {cache : Cache.State} {request : Request} {phase : Phase} {outcome : Outcome}
    {ns : Namespace} (hholds : session.store.database.Holds ns)
    (h : Advances env clock session cache request phase outcome) :
    ∃ ns', outcome.session.store.database.Holds ns' ∧ ns.Extends ns' ∧
      ∀ directory downloaded, request.directory = some directory →
        outcome.phase = .created downloaded → ns'.IsLoadedAt directory := by
  cases h with
  | created _ inode hinode children downloaded stored store hcall =>
      obtain ⟨ns', p, hholds', hextends, hp, hid, hloaded, -⟩ :=
        loaded_of_materialized hholds hcall
      refine ⟨ns', hholds', hextends, fun directory _ hdirectory _ => ?_⟩
      rw [hinode, Option.some.injEq] at hdirectory
      exact ⟨p, hp, hid.trans hdirectory, hloaded⟩
  | rejected _ inode hinode children downloaded e store hcall =>
      obtain ⟨ns', hholds', hextends⟩ :=
        after_extends hholds (.getOrCreateRemoteDirChildren env.loadSqlite inode children)
      rw [SessionStore.after, hcall] at hholds'
      exact ⟨ns', hholds', hextends, fun _ _ _ hphase => by cases hphase⟩
  | closed =>
      obtain ⟨ns', hholds', hextends⟩ := after_extends hholds (.close env.loadSqlite clock)
      exact ⟨ns', hholds', hextends, fun _ _ _ hphase => by cases hphase⟩
  | _ => exact ⟨ns, hholds, .refl ns, fun _ _ _ hphase => by cases hphase⟩

theorem active_of_step {s s' : State} {ns : Namespace}
    (hholds : s.session.store.database.Holds ns) (hstep : Steps root s s')
    (hactive : s'.session.store.database.Active) : s.session.store.database.Active := by
  cases hstep with
  | proceed i env clock request phase outcome hi hadvance =>
      by_contra hinactive
      dsimp only at hactive
      rw [store_of_inactive hholds hinactive hadvance] at hactive
      exact hinactive hactive
  | _ => exact hactive

/-! ### What lookups have returned -/

omit [Uuid] [Sha256] [Prost] in
theorem projectInode_of_erased {m n : Node} (h : m.erased = n.erased) :
    projectInode m.inode = projectInode n.inode := by
  obtain ⟨hid, hparent, hremote⟩ := Node.eq_of_erased_eq h
  exact projectInode_eq hid hparent hremote

omit [Uuid] [Sha256] [Prost] in
theorem Recalls.extend {ns ns' : Namespace} {task : Task} (h : Recalls ns task)
    (hextends : ns.Extends ns') : Recalls ns' task := by
  intro parent name entry htask
  obtain ⟨n, hn, hentry⟩ := h parent name entry htask
  obtain ⟨m, hm, herased⟩ := hextends.child hn
  exact ⟨m, hm, (projectInode_of_erased herased).trans hentry⟩

omit [Uuid] [Sha256] [Prost] in
theorem recalls_of_phase {ns : Namespace} {request : Request} {phase : Phase}
    (h : ∀ entry, phase ≠ .returned (.ok (.inode entry))) : Recalls ns ⟨request, phase⟩ := by
  intro parent name entry htask
  exact absurd (congrArg Task.phase htask) (h entry)

theorem recalls_of_advance {env : Surroundings} {clock : ℤ} {session : Session}
    {cache : Cache.State} {request : Request} {phase : Phase} {outcome : Outcome}
    {ns : Namespace} (hholds : session.store.database.Holds ns)
    (h : advance env clock session cache request phase = some outcome) :
    Recalls ns ⟨request, outcome.phase⟩ := by
  intro parent name entry htask
  obtain ⟨rfl, hphase⟩ := Task.mk.inj htask
  obtain rfl := loaded_of_answer rfl h hphase
  cases h
  cases hread : readChild env session parent name with
  | error e =>
      rw [hread] at hphase
      cases hphase
  | ok found =>
      rw [hread] at hphase
      cases hphase
      exact readChild_eq_ok hholds hread

/-- A step of a lookup of a child of an earlier namespace, while the session is active. -/
theorem prompt_of_advance {env : Surroundings} {clock : ℤ} {session : Session}
    {cache : Cache.State} {request : Request} {phase : Phase} {outcome : Outcome}
    {ns ns' : Namespace} {settled : InodeId → Prop} (hextends : ns.Extends ns')
    (hholds : session.store.database.Holds ns') (hactive : session.store.database.Active)
    (hinode : env.inodeSqlite.Quiet) (hread : env.readSqlite.Quiet)
    (hloaded : ∀ parent, settled parent → ns'.IsLoadedAt parent)
    (hprompt : Prompt ns settled ⟨request, phase⟩)
    (h : advance env clock session cache request phase = some outcome) :
    Prompt ns settled ⟨request, outcome.phase⟩ := by
  intro parent name n hrequest hsettled hn
  have hphase := hprompt parent name n hrequest hsettled hn
  dsimp only at hrequest hphase ⊢
  subst hrequest
  obtain ⟨m, hm, herased⟩ := hextends.child hn
  obtain rfl | rfl | rfl | rfl := hphase
  · cases h
  · have hnone := digestToLoad_of_isLoadedAt hholds hactive hinode (hloaded parent hsettled)
    have hload : load env session cache parent .locked = some outcome := h
    rw [load, hnone] at hload
    cases hload
    exact .inr (.inr (.inl rfl))
  · cases h
    rw [readChild_of_child hholds hactive hread hm, projectInode_of_erased herased]
    exact .inr (.inr (.inr rfl))
  · cases h

/-! ### Soundness -/

/-- What every run of events keeps. -/
structure Sound (root : PathBuf) (initial : PathBuf → Option Bytes) (s : State)
    (ns : Namespace) : Prop where
  orderly : Orderly root initial s
  holds : s.session.store.database.Holds ns
  unpoisoned : ∀ task ∈ s.tasks, ∀ inode, task.holds inode = true → s.poisoned inode = false
  settled : ∀ task ∈ s.tasks, ∀ directory, task.request.directory = some directory →
    task.phase.pastLoad = true → Settled s ns directory
  recalls : ∀ task ∈ s.tasks, Recalls ns task

variable {initial : PathBuf → Option Bytes} {s s' : State} {ns ns' : Namespace}

theorem Sound.keep (h : Sound root initial s ns) (hsteps : Steps root s s')
    (hsession : s'.session = s.session) (hpoisoned : s'.poisoned = s.poisoned)
    (htasks : ∀ task ∈ s'.tasks, task ∈ s.tasks ∨
      (∀ inode, task.holds inode = true → s.poisoned inode = false) ∧
        task.phase.pastLoad = false) : Sound root initial s' ns where
  orderly := h.orderly.step hsteps
  holds := hsession ▸ h.holds
  unpoisoned := by
    intro task htask inode hheld
    rw [hpoisoned]
    obtain hold | ⟨hsound, -⟩ := htasks task htask
    · exact h.unpoisoned task hold inode hheld
    · exact hsound inode hheld
  settled := by
    intro task htask directory hdirectory hpast
    obtain hold | ⟨-, hnew⟩ := htasks task htask
    · exact (h.settled task hold directory hdirectory hpast).step h.holds (.refl ns) hsteps
    · rw [hnew] at hpast
      cases hpast
  recalls := by
    intro task htask
    obtain hold | ⟨-, hnew⟩ := htasks task htask
    · exact h.recalls task hold
    · refine recalls_of_phase fun entry hphase => ?_
      rw [hphase] at hnew
      cases hnew

theorem Sound.settled_of_advance (h : Sound root initial s ns) {i : ℕ} {env : Surroundings}
    {clock : ℤ} {request : Request} {phase : Phase} {outcome : Outcome}
    (hi : s.tasks[i]? = some ⟨request, phase⟩)
    (hadvance : advance env clock s.session s.cache request phase = some outcome)
    (hextends : ns.Extends ns') {directory : InodeId}
    (hdirectory : request.directory = some directory)
    (hcreated : ∀ downloaded, outcome.phase = .created downloaded → ns'.IsLoadedAt directory)
    (hpast : outcome.phase.pastLoad = true) :
    Settled
      { session := outcome.session
        cache := outcome.cache
        poisoned := poison s.poisoned request outcome.poisons
        tasks := s.tasks.set i ⟨request, outcome.phase⟩ } ns' directory := by
  have hsteps : Steps root s _ := .proceed i env clock request phase outcome hi hadvance
  have hguarded := guarded_of_directory hdirectory
  -- A call that was past its load before the step.
  have hkept : phase.pastLoad = true → Settled
      { session := outcome.session
        cache := outcome.cache
        poisoned := poison s.poisoned request outcome.poisons
        tasks := s.tasks.set i ⟨request, outcome.phase⟩ } ns' directory :=
    fun hbefore => (h.settled _ (List.mem_of_getElem? hi) directory hdirectory hbefore).step
      h.holds hextends hsteps
  -- A call that has just found or made its directory loaded.
  have hnew : ns'.IsLoadedAt directory → phase.guarding = true → outcome.poisons = false →
      outcome.phase.awaited = none → Settled
        { session := outcome.session
          cache := outcome.cache
          poisoned := poison s.poisoned request outcome.poisons
          tasks := s.tasks.set i ⟨request, outcome.phase⟩ } ns' directory := by
    intro hloaded hguarding hpoisons hawaited
    rw [hpoisons]
    refine settled_of_holding h.orderly hloaded hi hguarded hguarding ?_ hawaited
    exact h.unpoisoned _ (List.mem_of_getElem? hi) directory
      (decide_eq_true ⟨hguarded, hguarding⟩)
  cases hadvances : advances_of_advance hadvance with
  | present _ inode hinode hnone =>
      rw [hinode, Option.some.injEq] at hdirectory
      subst hdirectory
      exact hnew (hextends.isLoadedAt (isLoadedAt_of_digestToLoad h.holds hnone)) rfl rfl rfl
  | created _ inode hinode children downloaded stored store hcall =>
      exact hnew (hcreated downloaded rfl) rfl rfl rfl
  | recorded => exact hkept rfl
  | settled _ _ result =>
      cases result with
      | error e => cases hpast
      | ok answer =>
          obtain rfl := loaded_of_answer hdirectory hadvance rfl
          exact hkept rfl
  | overlaid | counted | closed => cases hdirectory
  | requested | fetched | crashed | rejected | asked | served => cases hpast

theorem Sound.proceed (h : Sound root initial s ns) {i : ℕ} {env : Surroundings} {clock : ℤ}
    {request : Request} {phase : Phase} {outcome : Outcome}
    (hi : s.tasks[i]? = some ⟨request, phase⟩)
    (hadvance : advance env clock s.session s.cache request phase = some outcome) :
    ∃ ns', ns.Extends ns' ∧ Sound root initial
      { session := outcome.session
        cache := outcome.cache
        poisoned := poison s.poisoned request outcome.poisons
        tasks := s.tasks.set i ⟨request, outcome.phase⟩ } ns' := by
  have hsteps : Steps root s _ := .proceed i env clock request phase outcome hi hadvance
  have hadvances := advances_of_advance hadvance
  obtain ⟨ns', hholds', hextends, hcreated⟩ := hadvances.extends h.holds
  refine ⟨ns', hextends, h.orderly.step hsteps, hholds', ?_, ?_, ?_⟩
  · intro task htask inode hheld
    obtain ⟨j, hj⟩ := List.mem_iff_getElem?.mp htask
    cases hpoisons : outcome.poisons with
    | false =>
        have hbefore : s.poisoned inode = false := by
          obtain ⟨-, rfl⟩ | ⟨-, hold⟩ := Pool.getElem?_set_cases hj
          · obtain ⟨hguarded, hguarding⟩ := of_decide_eq_true hheld
            exact h.unpoisoned _ (List.mem_of_getElem? hi) inode
              (decide_eq_true ⟨hguarded, hadvances.guarding hguarding⟩)
          · exact h.unpoisoned task (List.mem_of_getElem? hold) inode hheld
        simp [poison, hbefore]
    | true =>
        obtain ⟨hpanicked, call, hcall⟩ := hadvances.of_poisons hpoisons
        obtain ⟨-, rfl⟩ | ⟨hne, hold⟩ := Pool.getElem?_set_cases hj
        · have hguarding := (of_decide_eq_true hheld).2
          dsimp only at hguarding
          rw [hpanicked] at hguarding
          cases hguarding
        · -- the call that panicked held the lock of another inode
          have hother : request.guarded ≠ some inode := by
            intro hguarded
            have hholds : Task.holds inode ⟨request, phase⟩ = true :=
              decide_eq_true ⟨hguarded, guarding_of_awaited hcall⟩
            exact hne (Pool.eq_of_countP_le_one (h.orderly.exclusive inode) hold hi hheld hholds)
          have hbefore := h.unpoisoned task (List.mem_of_getElem? hold) inode hheld
          simp [poison, hbefore, hother]
  · intro task htask directory hdirectory hpast
    obtain hold | rfl := List.mem_or_eq_of_mem_set htask
    · exact (h.settled task hold directory hdirectory hpast).step h.holds hextends hsteps
    · exact h.settled_of_advance hi hadvance hextends hdirectory
        (fun downloaded hphase => hcreated directory downloaded hdirectory hphase) hpast
  · intro task htask
    obtain hold | rfl := List.mem_or_eq_of_mem_set htask
    · exact (h.recalls task hold).extend hextends
    · exact (recalls_of_advance h.holds hadvance).extend hextends

theorem Sound.move (h : Sound root initial s ns) (hsteps : Steps root s s') :
    ∃ ns', ns.Extends ns' ∧ Sound root initial s' ns' := by
  cases hsteps with
  | call request =>
      refine ⟨ns, .refl ns, h.keep (.call request) rfl rfl fun task htask => ?_⟩
      obtain hold | hnew := List.mem_append.mp htask
      · exact .inl hold
      · rw [List.mem_singleton.mp hnew]
        exact .inr ⟨(fun inode hheld => by cases (of_decide_eq_true hheld).2), rfl⟩
  | lock i request inode hi hinode hfree hpoisoned =>
      refine ⟨ns, .refl ns, h.keep (.lock i request inode hi hinode hfree hpoisoned) rfl rfl
        fun task htask => ?_⟩
      obtain hold | rfl := List.mem_or_eq_of_mem_set htask
      · exact .inl hold
      · refine .inr ⟨fun other hheld => ?_, rfl⟩
        have hguarded := (of_decide_eq_true hheld).1
        rw [hinode, Option.some.injEq] at hguarded
        exact hguarded ▸ hpoisoned
  | refused i request inode hi hinode hpoisoned =>
      refine ⟨ns, .refl ns, h.keep (.refused i request inode hi hinode hpoisoned) rfl rfl
        fun task htask => ?_⟩
      obtain hold | rfl := List.mem_or_eq_of_mem_set htask
      · exact .inl hold
      · exact .inr ⟨(fun other hheld => by cases (of_decide_eq_true hheld).2), rfl⟩
  | proceed i env clock request phase outcome hi hadvance => exact h.proceed hi hadvance
  | cache call action cache hcache =>
      exact ⟨ns, .refl ns, h.keep (.cache call action cache hcache) rfl rfl
        fun task htask => .inl htask⟩

omit [Sha256] [Prost] in
theorem Sound.store (h : Sound root initial s ns) {session : Session}
    (hholds : session.store.database.Holds ns') (hextends : ns.Extends ns') :
    Sound root initial { s with session := session } ns' where
  orderly := ⟨h.orderly.cache, h.orderly.exclusive, h.orderly.waiting, h.orderly.made⟩
  holds := hholds
  unpoisoned := h.unpoisoned
  settled := by
    intro task htask directory hdirectory hpast
    obtain ⟨hloaded, hunpoisoned, hunawaited⟩ := h.settled task htask directory hdirectory hpast
    exact ⟨hextends.isLoadedAt hloaded, hunpoisoned, hunawaited⟩
  recalls := fun task htask => (h.recalls task htask).extend hextends

omit [Sha256] [Prost] in
theorem sound_start {rootDigest : Digest} {store : SessionStore}
    (hholds : store.database.Holds (Namespace.start rootDigest)) (root : PathBuf)
    (files : PathBuf → Option Bytes) :
    Sound root files (start rootDigest store files) (Namespace.start rootDigest) where
  orderly := orderly_start root rootDigest store files
  holds := hholds
  unpoisoned := fun task htask => by cases htask
  settled := fun task htask => by cases htask
  recalls := fun task htask => by cases htask

/-! ### Runs of events -/

/-- What holds of a state that follows another: its namespace extends the earlier one, the
directories that were settled are settled, and the lookups made since then are prompt while the
session is active. -/
def Follows (root : PathBuf) (ns : Namespace) (settled : InodeId → Prop) (n : ℕ) (quiet : Prop)
    (s : State) : Prop :=
  ∃ initial ns', Sound root initial s ns' ∧ ns.Extends ns' ∧
    (∀ directory, settled directory → Settled s ns' directory) ∧
    (s.session.store.database.Active → quiet →
      ∀ j task, n ≤ j → s.tasks[j]? = some task → Prompt ns settled task)

theorem prompt_of_step {settled : InodeId → Prop} {n : ℕ} {move : Move}
    (hquiet : (Event.move move).Quiet) (hsound : Sound root initial s ns')
    (hextends : ns.Extends ns') (hsettled : ∀ directory, settled directory →
      Settled s ns' directory) (hactive : s.session.store.database.Active)
    (hprompt : ∀ j task, n ≤ j → s.tasks[j]? = some task → Prompt ns settled task)
    (hstep : step root s move = some s') :
    ∀ j task, n ≤ j → s'.tasks[j]? = some task → Prompt ns settled task := by
  intro j task hj htask
  cases move with
  | call request =>
      cases hstep
      obtain hold | rfl := Pool.getElem?_append_cases htask
      · exact hprompt j task hj hold
      · exact fun _ _ _ _ _ _ => .inl rfl
  | lock i =>
      obtain ⟨request, inode, hi, hinode, -, rfl⟩ := lock_cases hstep
      obtain ⟨rfl, rfl⟩ | ⟨-, hold⟩ := Pool.getElem?_set_cases htask
      · intro parent name m hrequest hparent _
        dsimp only at hrequest ⊢
        subst hrequest
        cases hinode
        rw [(hsettled _ hparent).unpoisoned]
        exact .inr (.inl rfl)
      · exact hprompt j task hj hold
  | proceed i env clock =>
      obtain ⟨request, phase, outcome, hi, hadvance, rfl⟩ := proceed_cases hstep
      obtain ⟨rfl, rfl⟩ | ⟨-, hold⟩ := Pool.getElem?_set_cases htask
      · exact prompt_of_advance hextends hsound.holds hactive hquiet.1 hquiet.2
          (fun parent hparent => (hsettled parent hparent).loaded) (hprompt _ _ hj hi) hadvance
      · exact hprompt j task hj hold
  | cache call action =>
      obtain ⟨cache, -, rfl⟩ := cache_cases hstep
      exact hprompt j task hj htask

theorem Follows.happen {settled : InodeId → Prop} {n : ℕ} {quiet : Prop} {event : Event}
    (hquiet : quiet → event.Quiet) (h : Follows root ns settled n quiet s)
    (hhappen : System.happen root s event = some s') : Follows root ns settled n quiet s' := by
  obtain ⟨initial, ns', hsound, hextends, hsettled, hprompt⟩ := h
  cases event with
  | store call =>
      cases hhappen
      obtain ⟨ns'', hholds', hextends'⟩ := after_extends hsound.holds call
      refine ⟨initial, ns'', hsound.store hholds' hextends', hextends.trans hextends', ?_, ?_⟩
      · intro directory hdirectory
        obtain ⟨hloaded, hunpoisoned, hunawaited⟩ := hsettled directory hdirectory
        exact ⟨hextends'.isLoadedAt hloaded, hunpoisoned, hunawaited⟩
      · intro hactive hq
        refine hprompt ?_ hq
        by_contra hinactive
        dsimp only at hactive
        rw [after_of_inactive hsound.holds hinactive call] at hactive
        exact hinactive hactive
  | move move =>
      have hsteps := steps_of_step hhappen
      obtain ⟨ns'', hextends', hsound'⟩ := hsound.move hsteps
      refine ⟨initial, ns'', hsound', hextends.trans hextends', fun directory hdirectory =>
        (hsettled directory hdirectory).step hsound.holds hextends' hsteps, fun hactive' hq => ?_⟩
      have hactive := active_of_step hsound.holds hsteps hactive'
      exact prompt_of_step (hquiet hq) hsound hextends hsettled hactive (hprompt hactive hq)
        hhappen

theorem follows_of_run {settled : InodeId → Prop} {n : ℕ} {quiet : Prop} {events : List Event}
    (hquiet : quiet → ∀ event ∈ events, event.Quiet) (h : Follows root ns settled n quiet s)
    (hrun : Transition.run (System.happen root) s events = some s') :
    Follows root ns settled n quiet s' := by
  refine Transition.run_invariant_of_mem (P := fun event => event ∈ events)
    (fun t event t' hmem h hhappen => ?_) events s s' (fun event hmem => hmem) h hrun
  exact h.happen (fun hq => hquiet hq event hmem) hhappen

theorem Happened.sound {rootDigest : Digest} (h : Happened rootDigest root s) :
    ∃ initial ns, Sound root initial s ns := by
  obtain ⟨_, _, _, _, _, _, store, files, events, hcreate, hrun⟩ := h
  obtain ⟨hholds, -⟩ := create_holds hcreate
  have hstart : Follows root (Namespace.start rootDigest) (fun _ => False) 0 False
      (start rootDigest store files) :=
    ⟨files, _, sound_start hholds root files, .refl _, fun _ hfalse => hfalse.elim,
      fun _ hfalse => hfalse.elim⟩
  obtain ⟨initial, ns, hsound, -⟩ := follows_of_run False.elim hstart hrun
  exact ⟨initial, ns, hsound⟩

/-! ### Identities are stable -/

structure StableIdentity (root : PathBuf) (s : State) (events : List Event) (s' : State) :
    Prop where
  /-- Rows stay up to the loaded flag, and identities are not used again. -/
  rows : s.session.store.database.Grows s'.session.store.database
  /-- A proposal that is refused leaves nothing behind. -/
  refused : ∀ sqlite parent children e store,
    s.session.store.getOrCreateRemoteDirChildren sqlite parent children = (.error e, store) →
    store = s.session.store
  /-- After a materialization has succeeded, no proposal for the directory is accepted any
  more, and every materialization that succeeds returns the same children. -/
  accepted : ∀ sqlite parent children stored,
    (s.session.store.getOrCreateRemoteDirChildren sqlite parent children).1 = .ok stored →
    ∀ t more t', t.session.store =
        (s.session.store.getOrCreateRemoteDirChildren sqlite parent children).2 →
      Transition.run (happen root) t more = some t' →
      ∀ sqlite' children',
        (t'.session.store.getOrCreateRemoteDirChildren sqlite' parent children').2 =
            t'.session.store ∧
          ∀ stored',
            (t'.session.store.getOrCreateRemoteDirChildren sqlite' parent children').1 =
              .ok stored' →
            stored'.map StoreInode.unflagged = stored.map StoreInode.unflagged
  /-- No two lookups of a name return different inodes. -/
  agreed : ∀ parent name entry entry',
    ⟨.lookupChild parent name, .returned (.ok (.inode entry))⟩ ∈ s.tasks →
    ⟨.lookupChild parent name, .returned (.ok (.inode entry'))⟩ ∈ s'.tasks → entry' = entry
  /-- Once a lookup has returned an inode, every lookup made afterwards returns it while
  the session is active. -/
  returned : ∀ parent name entry,
    ⟨.lookupChild parent name, .returned (.ok (.inode entry))⟩ ∈ s.tasks →
    s'.session.store.database.Active → (∀ event ∈ events, event.Quiet) →
    ∀ i result, s.tasks.length ≤ i →
      s'.tasks[i]? = some ⟨.lookupChild parent name, .returned result⟩ →
      result = .ok (.inode entry)
  /-- The next lookup returns it too. -/
  found : ∀ parent name entry,
    ⟨.lookupChild parent name, .returned (.ok (.inode entry))⟩ ∈ s.tasks →
    s'.session.store.database.Active →
    ∀ env : Surroundings, env.inodeSqlite.Quiet → env.readSqlite.Quiet →
      lookupChild env s'.session parent name = (.ok entry, s'.session)

theorem happen_extends {event : Event} (hholds : s.session.store.database.Holds ns)
    (h : happen root s event = some s') :
    ∃ ns', s'.session.store.database.Holds ns' ∧ ns.Extends ns' := by
  cases event with
  | store call =>
      cases h
      exact after_extends hholds call
  | move move =>
      cases steps_of_step h with
      | proceed i env clock request phase outcome hi hadvance =>
          obtain ⟨ns', hholds', hextends, -⟩ := (advances_of_advance hadvance).extends hholds
          exact ⟨ns', hholds', hextends⟩
      | _ => exact ⟨ns, hholds, .refl ns⟩

/-- A materialization that succeeded and any run of events after it. -/
theorem materialized_once {s t t' : State} {ns : Namespace} {more : List Event}
    {sqlite : Sqlite} {parent : InodeId} {children : List NewRemoteInode}
    {stored : List StoreInode} (hholds : s.session.store.database.Holds ns)
    (hstored : (s.session.store.getOrCreateRemoteDirChildren sqlite parent children).1 =
      .ok stored)
    (ht : t.session.store =
      (s.session.store.getOrCreateRemoteDirChildren sqlite parent children).2)
    (hrun : Transition.run (happen root) t more = some t') (sqlite' : Sqlite)
    (children' : List NewRemoteInode) :
    (t'.session.store.getOrCreateRemoteDirChildren sqlite' parent children').2 =
        t'.session.store ∧
      ∀ stored',
        (t'.session.store.getOrCreateRemoteDirChildren sqlite' parent children').1 =
          .ok stored' →
        stored'.map StoreInode.unflagged = stored.map StoreInode.unflagged := by
  obtain ⟨ns', p, hholds', -, hp, rfl, hloaded, rfl⟩ :=
    loaded_of_materialized hholds (Prod.ext hstored ht.symm)
  -- The run extends the namespace, whatever the tasks of the state are.
  have hstep : ∀ (u : State) (event : Event) (u' : State),
      (∃ ms, u.session.store.database.Holds ms ∧ ns'.Extends ms) → happen root u event = some u' →
      ∃ ms, u'.session.store.database.Holds ms ∧ ns'.Extends ms := by
    rintro u event u' ⟨ms, hms, hextends⟩ hhappen
    obtain ⟨ms', hms', hextends'⟩ := happen_extends hms hhappen
    exact ⟨ms', hms', hextends.trans hextends'⟩
  obtain ⟨ns'', hholds'', hextends⟩ :=
    Transition.run_invariant hstep more t t' ⟨ns', hholds', .refl ns'⟩ hrun
  obtain ⟨q, hq, hid, hqloaded⟩ := hextends.isLoaded hp hloaded
  obtain ⟨hsame, hresult⟩ := materialize_loaded hholds'' hq hqloaded sqlite' children'
  rw [hid] at hsame hresult
  refine ⟨hsame, fun stored' hstored' => ?_⟩
  rw [hresult stored' hstored']
  exact hextends.unflagged_children hp hloaded

end Events

/-- In any interleaving of calls of the facade, of the cache and of the store, rows and
identities are stable, each directory takes one proposal, and a lookup that has returned an
inode returns it for good while the session is active. -/
theorem inode_identity_stable [Uuid] [Sha256] [Prost] (rootDigest : Digest) (root : PathBuf)
    (s s' : State) (events : List Event) (hs : Happened rootDigest root s)
    (hrun : Transition.run (happen root) s events = some s') :
    StableIdentity root s events s' := by
  obtain ⟨initial, ns, hsound⟩ := hs.sound
  have hnow : Follows root ns (Settled s ns) s.tasks.length (∀ event ∈ events, event.Quiet) s := by
    refine ⟨initial, ns, hsound, .refl ns, fun _ hsettled => hsettled,
      fun _ _ j task hj htask => ?_⟩
    rw [List.getElem?_eq_none hj] at htask
    cases htask
  obtain ⟨_, ns', hsound', hextends, -, hprompt⟩ := follows_of_run id hnow hrun
  have hholds := hsound.holds
  have hholds' := hsound'.holds
  refine ⟨hextends.grows hholds hholds', ?_, ?_, ?_, ?_, ?_⟩
  · intro sqlite parent children e store hcall
    obtain ⟨e', herror, -⟩ | ⟨-, -, hsame⟩ | ⟨_, db, -, hcreated, -⟩ :=
      getOrCreateRemoteDirChildren_cases hholds sqlite parent children
    · rw [herror] at hcall
      exact (Prod.mk.inj hcall).2.symm
    · rw [hsame] at hcall
      cases hcall
    · rw [hcreated] at hcall
      cases hcall
  · intro sqlite parent children stored hstored t more t' ht hmore sqlite' children'
    exact materialized_once hholds hstored ht hmore sqlite' children'
  · intro parent name entry entry' htask htask'
    obtain ⟨n, hn, rfl⟩ := hsound.recalls _ htask parent name entry rfl
    obtain ⟨m, hm, rfl⟩ := hsound'.recalls _ htask' parent name entry' rfl
    obtain ⟨l, hl, herased⟩ := hextends.child hn
    rw [hm, Option.some.injEq] at hl
    rw [hl]
    exact projectInode_of_erased herased
  · intro parent name entry htask hactive hquiet i result hi hresult
    have hsettled := hsound.settled _ htask parent rfl rfl
    obtain ⟨n, hn, rfl⟩ := hsound.recalls _ htask parent name entry rfl
    have hphase := hprompt hactive hquiet i _ hi hresult parent name n rfl hsettled hn
    simpa using hphase
  · intro parent name entry htask hactive env hinode hread
    obtain ⟨n, hn, rfl⟩ := hsound.recalls _ htask parent name entry rfl
    obtain ⟨m, hm, herased⟩ := hextends.child hn
    rw [lookupChild_of_child hholds' hactive hinode hread hm, projectInode_of_erased herased]

set_option maxRecDepth 2000 in
/-- A lookup in a sample session, and then a load of the same directory with other
children. -/
theorem inode_identity_stable_sample :
    letI : Uuid := Session.Sample.uuid
    letI : Sha256 := Session.Sample.sha256
    letI : Prost := Session.Sample.prost
    ∃ s s' entry, Happened Session.Sample.digest [] s ∧
      ⟨.lookupChild .root "b", .returned (.ok (.inode entry))⟩ ∈ s.tasks ∧
      Transition.run (happen []) s
          [.store (.getOrCreateRemoteDirChildren Session.Sample.quiet .root
            [Session.Sample.directoryChild])] = some s' ∧
      StableIdentity [] s
        [.store (.getOrCreateRemoteDirChildren Session.Sample.quiet .root
          [Session.Sample.directoryChild])] s' := by
  let _ : Uuid := Session.Sample.uuid
  let _ : Sha256 := Session.Sample.sha256
  let _ : Prost := Session.Sample.prost
  let events : List Event :=
    [.store (.getOrCreateRemoteDirChildren Session.Sample.quiet .root
        [Session.Sample.fileChild]),
      .move (.call (.lookupChild .root "b")), .move (.lock 0), .move (.proceed 0 calm 0),
      .move (.proceed 0 calm 0)]
  let more : List Event :=
    [.store (.getOrCreateRemoteDirChildren Session.Sample.quiet .root
      [Session.Sample.directoryChild])]
  have hexists : ∃ store s s' entry,
      SessionStore.create Session.Sample.quiet [.utf8 "session.db"]
        "67e55044-10b1-426f-9247-bb680e5fe0c8" 7 Session.Sample.digest [.utf8 "", .utf8 "mnt"]
        3 = .ok store ∧
      Transition.run (happen []) (start Session.Sample.digest store fun _ => none) events =
        some s ∧
      s.tasks = [⟨.lookupChild .root "b", .returned (.ok (.inode entry))⟩] ∧
      Transition.run (happen []) s more = some s' := ⟨_, _, _, _, rfl, rfl, rfl, rfl⟩
  obtain ⟨store, s, s', entry, hcreate, hrun, htasks, hmore⟩ := hexists
  have hs : Happened Session.Sample.digest [] s :=
    ⟨_, _, _, _, _, _, store, _, events, hcreate, hrun⟩
  refine ⟨s, s', entry, hs, ?_, hmore, ?_⟩
  · rw [htasks]
    exact List.mem_singleton_self _
  · exact inode_identity_stable Session.Sample.digest [] s s' more hs hmore

end System

end Session

end RemoteFs
