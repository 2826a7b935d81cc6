import RemoteFs.Home.Inspect

/-!
# Opening a session again

A daemon can be killed at every point and leave whatever it has made. The next daemon gets the
session lock, which went with the process, replaces what is there and opens a session of its
own. Nothing of the old session is in it but the verified cache.
-/

namespace RemoteFs

open Session (SessionStore Sqlite)

namespace Home

/-! ### A daemon on its own -/

section Solo

variable [Uuid] [Sha256] [Prost]

/-- A step of a daemon that goes on, where nobody else has the lock. -/
def solo (home : PathBuf) (index : ℕ) (arguments : Arguments) (state : Contents × Phase)
    (event : Event) : Option (Contents × Phase) :=
  match advance home index (!state.2.holding) arguments state.1 event state.2 with
  | some (contents, .ok phase) => some (contents, phase)
  | _ => none

def joining (threads : List Process) (arguments : Arguments) (state : Contents × Phase) :
    Daemons where
  shared :=
    { contents := state.1
      lock := if state.2.holding then some threads.length else none }
  threads := threads ++ [{ arguments := arguments, phase := state.2, exit := none }]

theorem step_joining {home : PathBuf} {threads : List Process} {arguments : Arguments}
    {state state' : Contents × Phase} {event : Event}
    (h : solo home threads.length arguments state event = some state') :
    step home (joining threads arguments state) (.act threads.length event) =
      some (joining threads arguments state') := by
  rw [solo] at h
  split at h
  · next contents phase hadvance =>
      cases h
      have hlock : (if state.2.holding then some threads.length else none).isNone =
          !state.2.holding := by
        cases state.2.holding <;> rfl
      have hsettle : Lock.settle Process.holds threads.length
          { arguments := arguments, phase := phase, exit := none }
          (if state.2.holding then some threads.length else none) =
            if phase.holding then some threads.length else none := by
        rw [Lock.settle, Process.holds_of_alive rfl, Lock.free]
        refine if_congr Iff.rfl rfl ?_
        cases state.2.holding with
        | true => exact if_pos rfl
        | false => rfl
      have hact : act home threads.length event (joining threads arguments state).shared
          { arguments := arguments, phase := state.2, exit := none } = some
            ((joining threads arguments (contents, phase)).shared,
              { arguments := arguments, phase := phase, exit := none }) := by
        rw [act, Option.isSome_none, if_neg Bool.false_ne_true]
        dsimp only [joining]
        rw [hlock, hadvance, Option.map_some, Process.after]
        dsimp only
        rw [hsettle]
      rw [joining] at hact
      rw [step, Pool.step, joining, Pool.getElem?_concat, Option.bind_some, hact,
        Option.map_some, joining, Pool.set_concat]
  · cases h

/-! ### The way to a session -/

def acquiring : List Event :=
  [.connectCas none, .validateMountpoint (.ok true), .ensureHome none, .acquireLock none,
    .truncateRecord none, .writeRecord none]

def clearing (tree : Option Tree) : List Event :=
  let entries := tree.elim [] fun tree => [Entry.database, .overlay, .socket].filter tree.has
  entries.map .removeEntry ++ [.removeTree none]

def creating (sqlite : Sqlite) (clock : ℤ) : List Event :=
  [.createTree none, .createDatabase none, .openCache none, .openOverlay none,
    .openDatabase sqlite, .createSchema sqlite, .recordVersion sqlite,
    .initializeDatabase sqlite clock]

def Contents.reopened (contents : Contents) (index : ℕ) (arguments : Arguments)
    (store : SessionStore) : Contents where
  created := true
  record := some arguments.record
  tree := some { database := some contents.databases.length, overlay := true, socket := none }
  databases := contents.databases ++
    [{ origin := .daemon index, version := schemaVersion, tables := some store.database }]
  cacheFiles := contents.cacheFiles
  traceLog := contents.traceLog

variable (home : PathBuf) (index : ℕ) (arguments : Arguments) (contents : Contents)

theorem solo_acquiring :
    Transition.run (solo home index arguments) (contents, .connectCas) acquiring = some
      ({ contents with created := true, record := some arguments.record }, .removeTree) := by
  obtain ⟨created, record, tree, databases, cacheFiles, traceLog⟩ := contents
  cases created <;> rfl

theorem solo_clearing :
    Transition.run (solo home index arguments) (contents, .removeTree) (clearing contents.tree) =
      some
      ({ contents with tree := none }, .createTree) := by
  obtain ⟨created, record, tree, databases, cacheFiles, traceLog⟩ := contents
  cases tree with
  | none => rfl
  | some tree =>
      obtain ⟨database, overlay, socket⟩ := tree
      cases database <;> cases overlay <;> cases socket <;> rfl

omit [Uuid] [Sha256] [Prost] in
theorem Contents.writeDatabase_last {databases : List DatabaseFile} {file : DatabaseFile}
    (h : contents.databases = databases ++ [file]) (f : DatabaseFile → DatabaseFile) :
    contents.writeDatabase databases.length f =
      { contents with databases := databases ++ [f file] } := by
  have hmodify : (databases ++ [file]).modify databases.length f = databases ++ [f file] := by
    rw [List.modify_eq_take_cons_drop (by simp)]
    simp
  rw [Contents.writeDatabase, h, hmodify]

theorem solo_seeding {sqlite : Sqlite} (hsqlite : ∀ statement, sqlite statement = none)
    {clock : ℤ} {store : SessionStore} {databases : List DatabaseFile} {origin : Origin}
    (hdatabases : contents.databases = databases ++ [⟨origin, 0, none⟩])
    (hstore : SessionStore.initializeDatabase
      { databasePath := (SessionLayout.new home).databasePath, database := .empty } sqlite
      arguments.sessionId arguments.pid arguments.rootDigest arguments.mountpoint clock =
        (.ok (), store)) :
    Transition.run (solo home index arguments) (contents, .createSchema databases.length)
        [.createSchema sqlite, .recordVersion sqlite, .initializeDatabase sqlite clock] =
      some
        ({ contents with
            databases := databases ++ [⟨origin, schemaVersion, some store.database⟩] },
          .initLogging databases.length
            (Session.System.start arguments.rootDigest store contents.cacheFiles)) := by
  have hexecute : ∀ path statement operation,
      Session.execute sqlite path statement operation = .ok () := by
    intro path statement operation
    rw [Session.execute, hsqlite statement]
  have hlast := Pool.getElem?_concat databases
  have hcheck : checkVersion home sqlite 0 = .ok () := by
    rw [checkVersion, hexecute, Result.ok_bind, if_neg (by simp)]
    rfl
  have hschema : solo home index arguments (contents, .createSchema databases.length)
      (.createSchema sqlite) = some
        ({ contents with databases := databases ++ [⟨origin, 0, some .empty⟩] },
          .recordVersion databases.length) := by
    rw [solo, advance, createSchema, hdatabases, hlast, Option.map_some, Option.getD_some,
      hcheck, Result.ok_bind, hexecute, contents.writeDatabase_last hdatabases]
    rfl
  have hversion : solo home index arguments
      ({ contents with databases := databases ++ [⟨origin, 0, some .empty⟩] },
        .recordVersion databases.length) (.recordVersion sqlite) = some
        ({ contents with databases := databases ++ [⟨origin, schemaVersion, some .empty⟩] },
          .initializeDatabase databases.length) := by
    rw [solo, advance, recordVersion, hlast, Option.map_some, Option.getD_some, hexecute,
      if_pos rfl, Contents.writeDatabase_last _ rfl]
    rfl
  have hseed : solo home index arguments
      ({ contents with databases := databases ++ [⟨origin, schemaVersion, some .empty⟩] },
        .initializeDatabase databases.length) (.initializeDatabase sqlite clock) = some
        ({ contents with
            databases := databases ++ [⟨origin, schemaVersion, some store.database⟩] },
          .initLogging databases.length
            (Session.System.start arguments.rootDigest store contents.cacheFiles)) := by
    rw [solo, advance, initializeDatabase, hlast, Option.bind_some]
    dsimp only
    rw [hstore]
    dsimp only
    rw [Contents.writeDatabase_last _ rfl]
  rw [Transition.run_cons, hschema, Option.bind_some, Transition.run_cons, hversion,
    Option.bind_some, Transition.run_cons, hseed, Option.bind_some, Transition.run_nil]

theorem solo_creating {sqlite : Sqlite} (hsqlite : ∀ statement, sqlite statement = none)
    {clock : ℤ} {store : SessionStore} (htree : contents.tree = none)
    (hstore : SessionStore.create sqlite (SessionLayout.new home).databasePath
      arguments.sessionId arguments.pid arguments.rootDigest arguments.mountpoint clock =
        .ok store) :
    Transition.run (solo home index arguments) (contents, .createTree) (creating sqlite clock) =
      some
        ({ contents with
            tree := some ⟨some contents.databases.length, true, none⟩
            databases := contents.databases ++
              [⟨.daemon index, schemaVersion, some store.database⟩] },
          .initLogging contents.databases.length
            (Session.System.start arguments.rootDigest store contents.cacheFiles)) := by
  obtain ⟨created, record, tree, databases, cacheFiles, traceLog⟩ := contents
  subst htree
  obtain rfl : sqlite = fun _ => none := funext hsqlite
  have hseed : SessionStore.initializeDatabase
      { databasePath := (SessionLayout.new home).databasePath, database := .empty }
      (fun _ => none) arguments.sessionId arguments.pid arguments.rootDigest
      arguments.mountpoint clock = (.ok (), store) := by
    obtain ⟨-, hstore⟩ := (Result.check_bind_eq_ok_iff _ _ _).mp hstore
    obtain ⟨-, hstore⟩ := (Result.check_bind_eq_ok_iff _ _ _).mp hstore
    dsimp only at hstore
    split at hstore
    · next store' hseed =>
        cases hstore
        exact hseed
    · cases hstore
  have hfirst : Transition.run (solo home index arguments)
      (⟨created, record, none, databases, cacheFiles, traceLog⟩, .createTree)
      [.createTree none, .createDatabase none, .openCache none, .openOverlay none,
        .openDatabase fun _ => none] = some
        (⟨created, record, some ⟨some databases.length, true, none⟩,
          databases ++ [⟨.daemon index, 0, none⟩], cacheFiles, traceLog⟩,
          .createSchema databases.length) := rfl
  have happend : creating (fun _ => none) clock =
      [.createTree none, .createDatabase none, .openCache none, .openOverlay none,
        .openDatabase fun _ => none] ++
      [.createSchema fun _ => none, .recordVersion fun _ => none,
        .initializeDatabase (fun _ => none) clock] := rfl
  rw [happend, Transition.run_append _ _ _ _ _ hfirst]
  exact solo_seeding home index arguments _ (fun _ => rfl) rfl hseed

theorem solo_opening {sqlite : Sqlite} (hsqlite : ∀ statement, sqlite statement = none)
    {clock : ℤ} {store : SessionStore}
    (hstore : SessionStore.create sqlite (SessionLayout.new home).databasePath
      arguments.sessionId arguments.pid arguments.rootDigest arguments.mountpoint clock =
        .ok store) :
    Transition.run (solo home index arguments) (contents, .connectCas)
        (acquiring ++ clearing contents.tree ++ creating sqlite clock) =
      some
        (contents.reopened index arguments store,
          .initLogging contents.databases.length
            (Session.System.start arguments.rootDigest store contents.cacheFiles)) := by
  rw [List.append_assoc,
    Transition.run_append _ _ _ _ _ (solo_acquiring home index arguments contents),
    Transition.run_append _ _ _ _ _ (solo_clearing home index arguments
      { contents with created := true, record := some arguments.record })]
  exact solo_creating home index arguments
    { contents with created := true, record := some arguments.record, tree := none } hsqlite rfl
    hstore

/-! ### A new daemon -/

/-- The processes once the one that holds the lock is killed. -/
def interrupted (daemons : Daemons) : List Process :=
  match daemons.shared.lock with
  | some i => daemons.threads.modify i fun process => { process with exit := some .killed }
  | none => daemons.threads

/-- The daemon with the lock is killed, and a new one is started and opens its session. -/
def takeover (daemons : Daemons) (arguments : Arguments) (sqlite : Sqlite) (clock : ℤ) :
    List Move :=
  daemons.shared.lock.toList.map (fun i => .act i .kill) ++ .spawn arguments ::
    (acquiring ++ clearing daemons.shared.contents.tree ++ creating sqlite clock).map
      (.act daemons.threads.length)

omit [Uuid] [Sha256] [Prost] in
theorem length_interrupted (daemons : Daemons) :
    (interrupted daemons).length = daemons.threads.length := by
  unfold interrupted
  split
  · exact List.length_modify ..
  · rfl

theorem run_kill (home : PathBuf) {daemons : Daemons} (hsound : Sound daemons) :
    Transition.run (step home) daemons
        (daemons.shared.lock.toList.map fun i => .act i .kill) = some
      { shared := { contents := daemons.shared.contents, lock := none }
        threads := interrupted daemons } := by
  obtain ⟨⟨contents, lock⟩, threads⟩ := daemons
  cases lock with
  | none => rfl
  | some i =>
      obtain ⟨process, hi, hholds⟩ := (hsound.held i).mp rfl
      dsimp only at hi
      have halive : process.exit.isSome = false := by
        rw [Process.holds, Bool.and_eq_true] at hholds
        cases hexit : process.exit with
        | none => rfl
        | some exit =>
            rw [hexit] at hholds
            cases hholds.1
      have hact : act home i .kill ⟨contents, some i⟩ process = some
          (⟨contents, none⟩, { process with exit := some .killed }) := by
        have hadvance : advance home i false process.arguments contents .kill process.phase =
            some (contents, .error .killed) := by
          cases process.phase <;> rfl
        rw [act, halive, if_neg Bool.false_ne_true]
        dsimp only [Option.isNone_some]
        rw [hadvance]
        simp [Lock.settle, Lock.free, Process.after, Process.holds]
      rw [Option.toList_some, List.map_cons, List.map_nil, Transition.run_cons, step, Pool.step]
      dsimp only
      rw [hi, Option.bind_some, hact, Option.map_some, Option.bind_some, Transition.run_nil,
        interrupted]
      dsimp only
      rw [Pool.modify_eq_set hi]

/-- Wherever the daemons of a home are, whatever they have left and even if the one that has
the lock is killed now, the next daemon opens its session. The session is a new one, and the
cache is as it was. -/
theorem home_recovers (home : PathBuf) (daemons : Daemons) (hreached : Reached home daemons)
    (arguments : Arguments) (sqlite : Sqlite) (hsqlite : ∀ statement, sqlite statement = none)
    (clock : ℤ) (store : SessionStore)
    (hstore : SessionStore.create sqlite (SessionLayout.new home).databasePath
      arguments.sessionId arguments.pid arguments.rootDigest arguments.mountpoint clock =
        .ok store) :
    Transition.run (step home) daemons (takeover daemons arguments sqlite clock) = some
      { shared :=
          { contents := daemons.shared.contents.reopened daemons.threads.length arguments store
            lock := some daemons.threads.length }
        threads := interrupted daemons ++
          [{ arguments := arguments
             phase := .initLogging daemons.shared.contents.databases.length
               (Session.System.start arguments.rootDigest store
                 daemons.shared.contents.cacheFiles)
             exit := none }] } := by
  have hkill := run_kill home (sound_of_reached hreached)
  have hsolo := solo_opening home daemons.threads.length arguments daemons.shared.contents
    hsqlite hstore
  have hrun := Transition.run_embed (step home) (joining (interrupted daemons) arguments)
    (Move.act daemons.threads.length) (fun state event state' h => by
      rw [← length_interrupted] at h ⊢
      exact step_joining h) _ _ _ hsolo
  rw [takeover, Transition.run_append _ _ _ _ _ hkill, Transition.run_cons]
  rw [joining, joining] at hrun
  rw [length_interrupted] at hrun
  exact hrun

end Solo

theorem Sample.create_ok :
    letI : Uuid := Session.Sample.uuid
    ∃ store, SessionStore.create Session.Sample.quiet (SessionLayout.new home).databasePath
      arguments.sessionId arguments.pid arguments.rootDigest arguments.mountpoint 3 = .ok store :=
  ⟨_, rfl⟩

/-- A daemon that serves is killed, and the next one has a session. -/
theorem home_recovers_sample :
    letI : Uuid := Session.Sample.uuid
    letI : Sha256 := Session.Cache.Sample.sha256
    letI : Prost := Session.System.Sample.prost
    ∃ daemons daemons', Reached Sample.home daemons ∧ daemons.shared.lock = some 0 ∧
      Transition.run (step Sample.home) daemons
        (takeover daemons Sample.arguments Session.Sample.quiet 3) = some daemons' ∧
      daemons'.shared.lock = some 2 ∧
      daemons'.shared.contents.cacheFiles = daemons.shared.contents.cacheFiles := by
  let _ : Uuid := Session.Sample.uuid
  let _ : Sha256 := Session.Cache.Sample.sha256
  let _ : Prost := Session.System.Sample.prost
  obtain ⟨daemons, p, q, session, hrun, hthreads, hholds, -⟩ := Sample.moves_serving
  obtain ⟨store, hstore⟩ := Sample.create_ok
  have hreached : Reached Sample.home daemons :=
    ⟨Contents.absent, Sample.moves, Sample.found_absent, hrun⟩
  have hfirst : daemons.threads[0]? = some p := by rw [hthreads]; rfl
  refine ⟨daemons, _, hreached, (sound_of_reached hreached).held.eq_some hfirst hholds,
    home_recovers Sample.home daemons hreached Sample.arguments Session.Sample.quiet
      (fun _ => rfl) 3 store hstore, ?_, rfl⟩
  rw [hthreads]
  rfl

end Home

end RemoteFs
