import RemoteFs.Home.Steps

/-!
# Who owns a home

`Fits` is what the disk looks like to the daemon that holds the session lock, phase by phase:
the record, the session tree, the trace log and the cache are its own. `Wrote` is what a daemon
has put into the database file it made, also after it ended. `Sound` collects what every step
of every daemon keeps: the lock names the one daemon that holds it, the disk fits that daemon,
and every database file is what its maker left in it.
-/

namespace RemoteFs

open Session (SessionStore Sqlite Surroundings InodeId)

namespace Home

/-! ### What a daemon sees -/

/-- The session tree names a database file of the daemon with an index. The socket, once it is
bound, is its own or was removed by a daemon that let go of the lock before. -/
structure Placed (index : ℕ) (contents : Contents) (database : ℕ) (overlay bound : Bool) :
    Prop where
  tree : ∃ socket, contents.tree =
      some { database := some database, overlay := overlay, socket := socket } ∧
    (socket = none ∨ bound = true ∧ socket = some (.daemon index))
  file : ∃ file, contents.databases[database]? = some file ∧ file.origin = .daemon index

/-- An open session is the one on disk. -/
structure Hosts (index : ℕ) (arguments : Arguments) (contents : Contents) (bound : Bool)
    (database : ℕ) (session : Session.System.State) : Prop where
  record : contents.record = some arguments.record
  placed : Placed index contents database true bound
  cacheFiles : contents.cacheFiles = session.cache.shared.files

/-- What is on disk while the daemon with an index holds the lock. -/
def Fits (index : ℕ) (arguments : Arguments) (contents : Contents) : Phase → Prop
  | .writeRecord => contents.record = none
  | .removeTree => contents.record = some arguments.record
  | .createTree => contents.record = some arguments.record ∧ contents.tree = none
  | .createDatabase => contents.record = some arguments.record ∧ contents.tree = some .empty
  | .openCache => contents.record = some arguments.record ∧
      ∃ database, Placed index contents database false false
  | .openOverlay => contents.record = some arguments.record ∧
      ∃ database, Placed index contents database false false
  | .openDatabase => contents.record = some arguments.record ∧
      ∃ database, Placed index contents database true false
  | .createSchema database => contents.record = some arguments.record ∧
      Placed index contents database true false
  | .recordVersion database => contents.record = some arguments.record ∧
      Placed index contents database true false
  | .initializeDatabase database => contents.record = some arguments.record ∧
      Placed index contents database true false
  | .initLogging database session => Hosts index arguments contents false database session
  | .loadRoot database session => Hosts index arguments contents false database session ∧
      contents.traceLog = some (.daemon index)
  | .mountFuse database session => Hosts index arguments contents false database session ∧
      contents.traceLog = some (.daemon index)
  | .bindSocket database session => Hosts index arguments contents false database session ∧
      contents.traceLog = some (.daemon index)
  | .restrictSocket database session => Hosts index arguments contents true database session ∧
      contents.traceLog = some (.daemon index)
  | .serving _ database session => Hosts index arguments contents true database session ∧
      contents.traceLog = some (.daemon index)
  | _ => True

/-- What a daemon has put into the database file it made. -/
def Wrote (database : ℕ) (file : DatabaseFile) : Phase → Prop
  | .openCache => file.version = 0 ∧ file.tables = none
  | .openOverlay => file.version = 0 ∧ file.tables = none
  | .openDatabase => file.version = 0 ∧ file.tables = none
  | .createSchema made => database = made ∧ file.version = 0 ∧ file.tables = none
  | .recordVersion made => database = made ∧ file.version = 0 ∧ file.tables = some .empty
  | .initializeDatabase made =>
      database = made ∧ file.version = schemaVersion ∧ file.tables = some .empty
  | phase => ∃ session, phase.session = some (database, session) ∧
      file.version = schemaVersion ∧ file.tables = some session.session.store.database

/-- Whether a daemon has found or made its home. -/
def Phase.homed : Phase → Bool
  | .connectCas => false
  | .validateMountpoint => false
  | .ensureHome => false
  | _ => true

section Frames

variable {index : ℕ} {arguments : Arguments} {contents : Contents} {phase : Phase}

theorem Placed.withHome {database : ℕ} {overlay bound : Bool}
    (h : Placed index contents database overlay bound) :
    Placed index contents.withHome database overlay bound :=
  ⟨h.tree, h.file⟩

theorem Placed.dropSocket {database : ℕ} {overlay bound : Bool}
    (h : Placed index contents database overlay bound) :
    Placed index contents.dropSocket database overlay bound := by
  obtain ⟨socket, htree, -⟩ := h.tree
  refine ⟨⟨none, ?_, .inl rfl⟩, h.file⟩
  rw [Contents.dropSocket, Contents.mapTree, htree]
  rfl

theorem Hosts.withHome {bound : Bool} {database : ℕ} {session : Session.System.State}
    (h : Hosts index arguments contents bound database session) :
    Hosts index arguments contents.withHome bound database session :=
  ⟨h.record, h.placed.withHome, h.cacheFiles⟩

theorem Hosts.dropSocket {bound : Bool} {database : ℕ} {session : Session.System.State}
    (h : Hosts index arguments contents bound database session) :
    Hosts index arguments contents.dropSocket bound database session :=
  ⟨h.record, h.placed.dropSocket, h.cacheFiles⟩

theorem Fits.withHome (h : Fits index arguments contents phase) :
    Fits index arguments contents.withHome phase := by
  cases phase with
  | openCache => exact ⟨h.1, h.2.imp fun _ => Placed.withHome⟩
  | openOverlay => exact ⟨h.1, h.2.imp fun _ => Placed.withHome⟩
  | openDatabase => exact ⟨h.1, h.2.imp fun _ => Placed.withHome⟩
  | createSchema database => exact ⟨h.1, h.2.withHome⟩
  | recordVersion database => exact ⟨h.1, h.2.withHome⟩
  | initializeDatabase database => exact ⟨h.1, h.2.withHome⟩
  | initLogging database session => exact Hosts.withHome h
  | loadRoot database session => exact ⟨h.1.withHome, h.2⟩
  | mountFuse database session => exact ⟨h.1.withHome, h.2⟩
  | bindSocket database session => exact ⟨h.1.withHome, h.2⟩
  | restrictSocket database session => exact ⟨h.1.withHome, h.2⟩
  | serving control database session => exact ⟨h.1.withHome, h.2⟩
  | _ => exact h

theorem Fits.dropSocket (h : Fits index arguments contents phase) :
    Fits index arguments contents.dropSocket phase := by
  cases phase with
  | createTree =>
      refine ⟨h.1, ?_⟩
      rw [Contents.dropSocket, Contents.mapTree, h.2]
      rfl
  | createDatabase =>
      refine ⟨h.1, ?_⟩
      rw [Contents.dropSocket, Contents.mapTree, h.2]
      rfl
  | openCache => exact ⟨h.1, h.2.imp fun _ => Placed.dropSocket⟩
  | openOverlay => exact ⟨h.1, h.2.imp fun _ => Placed.dropSocket⟩
  | openDatabase => exact ⟨h.1, h.2.imp fun _ => Placed.dropSocket⟩
  | createSchema database => exact ⟨h.1, h.2.dropSocket⟩
  | recordVersion database => exact ⟨h.1, h.2.dropSocket⟩
  | initializeDatabase database => exact ⟨h.1, h.2.dropSocket⟩
  | initLogging database session => exact Hosts.dropSocket h
  | loadRoot database session => exact ⟨h.1.dropSocket, h.2⟩
  | mountFuse database session => exact ⟨h.1.dropSocket, h.2⟩
  | bindSocket database session => exact ⟨h.1.dropSocket, h.2⟩
  | restrictSocket database session => exact ⟨h.1.dropSocket, h.2⟩
  | serving control database session => exact ⟨h.1.dropSocket, h.2⟩
  | _ => exact h

theorem Fits.hosts {database : ℕ} {session : Session.System.State}
    (h : Fits index arguments contents phase) (hphase : phase.session = some (database, session)) :
    Hosts index arguments contents true database session := by
  have hweaker : Hosts index arguments contents false database session →
      Hosts index arguments contents true database session := by
    rintro ⟨hrecord, ⟨⟨socket, htree, hsocket⟩, hfile⟩, hcache⟩
    refine ⟨hrecord, ⟨⟨socket, htree, hsocket.imp_right fun hbound => ?_⟩, hfile⟩, hcache⟩
    cases hbound.1
  cases phase with
  | initLogging =>
      cases hphase
      exact hweaker h
  | loadRoot =>
      cases hphase
      exact hweaker h.1
  | mountFuse =>
      cases hphase
      exact hweaker h.1
  | bindSocket =>
      cases hphase
      exact hweaker h.1
  | restrictSocket =>
      cases hphase
      exact h.1
  | serving =>
      cases hphase
      exact h.1
  | _ => cases hphase

end Frames

/-! ### What a step leaves to the daemon -/

section Preservation

variable {index : ℕ} {arguments : Arguments} {contents contents' : Contents}

theorem Placed.writeDatabase {database : ℕ} {overlay bound : Bool}
    (h : Placed index contents database overlay bound) (made : ℕ)
    {f : DatabaseFile → DatabaseFile} (hf : ∀ file, (f file).origin = file.origin) :
    Placed index (contents.writeDatabase made f) database overlay bound := by
  obtain ⟨file, hfile, horigin⟩ := h.file
  refine ⟨h.tree, ?_⟩
  rw [Contents.writeDatabase]
  dsimp only
  rw [List.getElem?_modify, hfile]
  refine ⟨if made = database then f file else file, rfl, ?_⟩
  split
  · exact (hf file).trans horigin
  · exact horigin

theorem Placed.created {tree : Tree} (htree : contents.tree = some tree)
    (hsocket : tree.socket = none) (hoverlay : tree.overlay = false) :
    Placed index (contents.createDatabase (.daemon index)) contents.databases.length false
      false := by
  refine ⟨⟨none, ?_, .inl rfl⟩, ⟨_, List.getElem?_concat_length, rfl⟩⟩
  rw [Contents.createDatabase, htree]
  simp [hsocket, hoverlay]

theorem Placed.overlaid {database : ℕ} (h : Placed index contents database false false) :
    Placed index (contents.mapTree fun tree => { tree with overlay := true }) database true
      false := by
  obtain ⟨socket, htree, hsocket⟩ := h.tree
  refine ⟨⟨socket, ?_, hsocket⟩, h.file⟩
  rw [Contents.mapTree, htree]
  rfl

theorem Placed.bound {database : ℕ} (h : Placed index contents database true false) :
    Placed index (contents.mapTree fun tree => { tree with socket := some (.daemon index) })
      database true true := by
  obtain ⟨socket, htree, -⟩ := h.tree
  refine ⟨⟨some (.daemon index), ?_, .inr ⟨rfl, rfl⟩⟩, h.file⟩
  rw [Contents.mapTree, htree]
  rfl

theorem Hosts.deposit {bound : Bool} {database : ℕ} {session : Session.System.State}
    (h : Hosts index arguments contents bound database session)
    (session' : Session.System.State) :
    Hosts index arguments (deposit contents database session') bound database session' := by
  have hplaced := h.placed.writeDatabase database
    (f := fun file => { file with tables := some session'.session.store.database })
    fun _ => rfl
  exact ⟨h.record, ⟨hplaced.tree, hplaced.file⟩, rfl⟩

theorem Phase.session_withSession {phase : Phase} {database : ℕ}
    {session : Session.System.State} (hphase : phase.session = some (database, session))
    (session' : Session.System.State) :
    (phase.withSession session').session = some (database, session') := by
  cases phase with
  | initLogging | loadRoot | mountFuse | bindSocket | restrictSocket | serving =>
      cases hphase
      rfl
  | _ => cases hphase

theorem wrote_of_session {phase : Phase} {database made : ℕ} {session : Session.System.State}
    {file : DatabaseFile} (hphase : phase.session = some (made, session)) :
    Wrote database file phase ↔ database = made ∧ file.version = schemaVersion ∧
      file.tables = some session.session.store.database := by
  have hiff : (∃ session', phase.session = some (database, session') ∧
      file.version = schemaVersion ∧ file.tables = some session'.session.store.database) ↔
      database = made ∧ file.version = schemaVersion ∧
        file.tables = some session.session.store.database := by
    rw [hphase]
    constructor
    · rintro ⟨session', hsession, hrest⟩
      cases hsession
      exact ⟨rfl, hrest⟩
    · rintro ⟨rfl, hrest⟩
      exact ⟨session, rfl, hrest⟩
  cases phase with
  | initLogging | loadRoot | mountFuse | bindSocket | restrictSocket | serving => exact hiff
  | _ => cases hphase

variable [Uuid] [Sha256] [Prost] {home : PathBuf} {lockFree : Bool} {phase phase' : Phase}

/-- The disk still fits the daemon after its own step. -/
theorem Proceeds.fits (h : Proceeds home index lockFree arguments contents phase contents' phase')
    (hfits : phase.holding = true → Fits index arguments contents phase)
    (hholding : phase'.holding = true) : Fits index arguments contents' phase' := by
  cases h with
  | connected => trivial
  | validated => trivial
  | ensured => trivial
  | acquired hfree => trivial
  | truncated => exact rfl
  | recorded => exact rfl
  | removed entry => exact hfits rfl
  | emptied => exact ⟨hfits rfl, rfl⟩
  | kept tree htree =>
      have hnone := (hfits rfl).2
      rw [htree] at hnone
      cases hnone
  | created => exact ⟨(hfits rfl).1, rfl⟩
  | databaseCreated tree htree hnone =>
      obtain ⟨hrecord, hempty⟩ := hfits rfl
      exact ⟨hrecord, _, Placed.created hempty rfl rfl⟩
  | cacheOpened => exact hfits rfl
  | overlayOpened =>
      obtain ⟨hrecord, database, hplaced⟩ := hfits rfl
      exact ⟨hrecord, database, hplaced.overlaid⟩
  | databaseOpened database htree =>
      obtain ⟨hrecord, made, hplaced⟩ := hfits rfl
      obtain ⟨socket, hmade, -⟩ := hplaced.tree
      rw [hmade, Option.bind_some, Option.some.injEq] at htree
      exact ⟨hrecord, htree ▸ hplaced⟩
  | databaseMissing tree htree hnone =>
      obtain ⟨-, made, hplaced⟩ := hfits rfl
      obtain ⟨socket, hmade, -⟩ := hplaced.tree
      rw [htree, Option.some.injEq] at hmade
      rw [hmade] at hnone
      cases hnone
  | schemaCreated database =>
      obtain ⟨hrecord, hplaced⟩ := hfits rfl
      exact ⟨hrecord, hplaced.writeDatabase database fun _ => rfl⟩
  | versionRecorded database =>
      obtain ⟨hrecord, hplaced⟩ := hfits rfl
      exact ⟨hrecord, hplaced.writeDatabase database fun _ => rfl⟩
  | initialized database sqlite clock tables store htables hstore =>
      obtain ⟨hrecord, hplaced⟩ := hfits rfl
      exact ⟨hrecord, hplaced.writeDatabase database fun _ => rfl, rfl⟩
  | logged database session =>
      obtain ⟨hrecord, hplaced, hcache⟩ := hfits rfl
      exact ⟨⟨hrecord, ⟨hplaced.tree, hplaced.file⟩, hcache⟩, rfl⟩
  | moved _ database session session' move hphase haccepts hstep =>
      have hfits := hfits (Phase.holding_of_accepts haccepts)
      cases phase with
      | loadRoot =>
          cases hphase
          exact ⟨hfits.1.deposit session', hfits.2⟩
      | mountFuse =>
          cases hphase
          exact ⟨hfits.1.deposit session', hfits.2⟩
      | bindSocket =>
          cases hphase
          exact ⟨hfits.1.deposit session', hfits.2⟩
      | restrictSocket =>
          cases hphase
          exact ⟨hfits.1.deposit session', hfits.2⟩
      | serving =>
          cases hphase
          exact ⟨hfits.1.deposit session', hfits.2⟩
      | _ => cases haccepts
  | loaded database session answer htask => exact hfits rfl
  | mounted database session => exact hfits rfl
  | bound database session tree htree hsocket =>
      obtain ⟨⟨hrecord, hplaced, hcache⟩, hlog⟩ := hfits rfl
      exact ⟨⟨hrecord, hplaced.bound, hcache⟩, hlog⟩
  | restricted database session => exact hfits rfl
  | controlled control control' action database session haction hcontrol =>
      exact hfits (keepsSession_of_step hcontrol hholding)
  | closeFailed control control' database session source hcloses hcontrol =>
      exact hfits (keepsSession_of_step hcontrol hholding)
  | closed control control' database session called session' env clock result hcloses hcall
      hclose hphase hcontrol =>
      have hfits := hfits (keepsSession_of_step hcontrol hholding)
      exact ⟨hfits.1.deposit session', hfits.2⟩
  | socketRemoved control control' database session contents' removed hcontents hcontrol =>
      have hfits := hfits (keepsSession_of_step hcontrol hholding)
      obtain rfl | rfl := hcontents
      · exact hfits
      · exact ⟨hfits.1.dropSocket, hfits.2⟩

/-! ### The file a daemon made -/

/-- A daemon makes at most one database file. -/
def Single (databases : List DatabaseFile) : Prop :=
  ∀ (d d' : ℕ) (file file' : DatabaseFile) (j : ℕ), databases[d]? = some file →
    databases[d']? = some file' → file.origin = .daemon j → file'.origin = .daemon j → d = d'

/-- The database files after a step of a daemon: the same ones, a new one, or the one it made
in another state. -/
inductive Files (index : ℕ) (phase phase' : Phase) (databases : List DatabaseFile) :
    List DatabaseFile → Prop
  | kept (hwrote : ∀ (database : ℕ) (file : DatabaseFile), databases[database]? = some file →
      file.origin = .daemon index → Wrote database file phase → Wrote database file phase') :
      Files index phase phase' databases databases
  | made (hnone : ∀ (database : ℕ) (file : DatabaseFile), ¬ Wrote database file phase)
      (hwrote : ∀ database, Wrote database
        { origin := .daemon index, version := 0, tables := none } phase') :
      Files index phase phase' databases
        (databases ++ [{ origin := .daemon index, version := 0, tables := none }])
  | written (database : ℕ) (f : DatabaseFile → DatabaseFile)
      (hf : ∀ file, (f file).origin = file.origin)
      (hmade : ∃ file, databases[database]? = some file ∧ file.origin = .daemon index)
      (hwrote : ∀ (other : ℕ) (file : DatabaseFile), Wrote other file phase →
        Wrote other (f file) phase') :
      Files index phase phase' databases (databases.modify database f)

omit [Uuid] [Sha256] [Prost] in
theorem Files.deposit {database : ℕ} {session session' : Session.System.State}
    (hphase : phase.session = some (database, session))
    (hphase' : phase'.session = some (database, session'))
    (hplaced : ∃ file, contents.databases[database]? = some file ∧
      file.origin = .daemon index) :
    Files index phase phase' contents.databases
      (Home.deposit contents database session').databases := by
  refine .written database _ (fun _ => rfl) hplaced fun other file hwrote => ?_
  obtain ⟨rfl, hversion, -⟩ := (wrote_of_session hphase).mp hwrote
  exact (wrote_of_session hphase').mpr ⟨rfl, hversion, rfl⟩

omit [Uuid] [Sha256] [Prost] in
theorem Files.same {database : ℕ} {session : Session.System.State}
    {databases : List DatabaseFile} (hphase : phase.session = some (database, session))
    (hphase' : phase'.session = some (database, session)) :
    Files index phase phase' databases databases := by
  refine .kept fun other file _ _ hwrote => ?_
  exact (wrote_of_session hphase').mpr ((wrote_of_session hphase).mp hwrote)

theorem Proceeds.files
    (h : Proceeds home index lockFree arguments contents phase contents' phase')
    (hfits : phase.holding = true → Fits index arguments contents phase)
    (hsingle : Single contents.databases) :
    Files index phase phase' contents.databases contents'.databases := by
  have hnever : ∀ {phase' : Phase}, (∀ (d : ℕ) (file : DatabaseFile), ¬ Wrote d file phase) →
      Files index phase phase' contents.databases contents.databases :=
    fun hnone => .kept fun d file _ _ hwrote => absurd hwrote (hnone d file)
  have hearly : phase.session = none →
      (∀ (d : ℕ) (file : DatabaseFile), Wrote d file phase →
        ∃ session, phase.session = some (d, session)) →
      ∀ (d : ℕ) (file : DatabaseFile), ¬ Wrote d file phase := by
    intro hphase hsession d file hwrote
    obtain ⟨session, hsome⟩ := hsession d file hwrote
    rw [hphase] at hsome
    cases hsome
  cases h with
  | connected => exact hnever (hearly rfl fun d file => Exists.imp fun _ => And.left)
  | validated => exact hnever (hearly rfl fun d file => Exists.imp fun _ => And.left)
  | ensured => exact hnever (hearly rfl fun d file => Exists.imp fun _ => And.left)
  | acquired hfree => exact hnever (hearly rfl fun d file => Exists.imp fun _ => And.left)
  | truncated => exact hnever (hearly rfl fun d file => Exists.imp fun _ => And.left)
  | recorded => exact hnever (hearly rfl fun d file => Exists.imp fun _ => And.left)
  | removed entry => exact hnever (hearly rfl fun d file => Exists.imp fun _ => And.left)
  | emptied => exact hnever (hearly rfl fun d file => Exists.imp fun _ => And.left)
  | kept tree htree => exact hnever (hearly rfl fun d file => Exists.imp fun _ => And.left)
  | created => exact hnever (hearly rfl fun d file => Exists.imp fun _ => And.left)
  | databaseCreated tree htree hnone =>
      exact .made (hearly rfl fun d file => Exists.imp fun _ => And.left) fun _ => ⟨rfl, rfl⟩
  | cacheOpened => exact .kept fun _ _ _ _ => id
  | overlayOpened => exact .kept fun _ _ _ _ => id
  | databaseOpened database htree =>
      obtain ⟨-, made, hplaced⟩ := hfits rfl
      obtain ⟨socket, hmade, -⟩ := hplaced.tree
      obtain ⟨file, hfile, horigin⟩ := hplaced.file
      rw [hmade, Option.bind_some, Option.some.injEq] at htree
      refine .kept fun other file' hother horigin' hwrote => ⟨?_, hwrote⟩
      exact htree ▸ hsingle other made file' file index hother hfile horigin' horigin
  | databaseMissing tree htree hnone =>
      obtain ⟨-, made, hplaced⟩ := hfits rfl
      obtain ⟨socket, hmade, -⟩ := hplaced.tree
      rw [htree, Option.some.injEq] at hmade
      rw [hmade] at hnone
      cases hnone
  | schemaCreated database =>
      refine .written database _ (fun _ => rfl) (hfits rfl).2.file fun other file hwrote => ?_
      obtain ⟨rfl, hversion, htables⟩ := hwrote
      exact ⟨rfl, hversion, by rw [htables]; rfl⟩
  | versionRecorded database =>
      refine .written database _ (fun _ => rfl) (hfits rfl).2.file fun other file hwrote => ?_
      obtain ⟨rfl, hversion, htables⟩ := hwrote
      exact ⟨rfl, by rw [if_pos hversion], htables⟩
  | initialized database sqlite clock tables store htables hstore =>
      refine .written database _ (fun _ => rfl) (hfits rfl).2.file fun other file hwrote => ?_
      obtain ⟨rfl, hversion, -⟩ := hwrote
      exact (wrote_of_session rfl).mpr ⟨rfl, hversion, rfl⟩
  | logged database session =>
      refine .kept fun other file _ _ hwrote => ?_
      obtain ⟨rfl, hversion, htables⟩ := (wrote_of_session rfl).mp hwrote
      exact ⟨_, rfl, hversion, htables⟩
  | moved _ database session session' move hphase haccepts hstep =>
      have hhosts := (hfits (Phase.holding_of_accepts haccepts)).hosts hphase
      exact .deposit hphase (Phase.session_withSession hphase session') hhosts.placed.file
  | loaded database session answer htask => exact .same rfl rfl
  | mounted database session => exact .same rfl rfl
  | bound database session tree htree hsocket => exact .same rfl rfl
  | restricted database session => exact .same rfl rfl
  | controlled control control' action database session => exact .same rfl rfl
  | closeFailed control control' database session => exact .same rfl rfl
  | closed control control' database session called session' env clock result hcloses =>
      have hfits := hfits (keepsSession_of_closes hcloses)
      exact .deposit rfl rfl hfits.1.placed.file
  | socketRemoved control control' database session contents' removed hcontents =>
      obtain rfl | rfl := hcontents
      · exact .same rfl rfl
      · exact .same rfl rfl

omit [Uuid] [Sha256] [Prost] in
theorem sane_mapTree (h : contents.Sane) {f : Tree → Tree}
    (hf : ∀ tree, (f tree).database = tree.database ∨ (f tree).database = none) :
    (contents.mapTree f).Sane := by
  refine ⟨fun htree => h.created (by simpa [Contents.mapTree] using htree),
    fun database hdatabase => ?_⟩
  rw [Contents.mapTree] at hdatabase ⊢
  cases htree : contents.tree with
  | none =>
      rw [htree] at hdatabase
      cases hdatabase
  | some tree =>
      rw [htree, Option.map_some, Option.bind_some] at hdatabase
      refine h.named database ?_
      rw [htree, Option.bind_some]
      obtain hsame | hnone := hf tree
      · exact hsame ▸ hdatabase
      · rw [hnone] at hdatabase
        cases hdatabase

omit [Uuid] [Sha256] [Prost] in
theorem sane_writeDatabase (h : contents.Sane) (made : ℕ) (f : DatabaseFile → DatabaseFile) :
    (contents.writeDatabase made f).Sane := by
  refine ⟨h.created, fun database hdatabase => ?_⟩
  rw [Contents.writeDatabase]
  dsimp only
  rw [List.length_modify]
  exact h.named database hdatabase

omit [Uuid] [Sha256] [Prost] in
theorem sane_createDatabase (h : contents.Sane) (origin : Origin) :
    (contents.createDatabase origin).Sane := by
  refine ⟨fun htree => h.created (by simpa [Contents.createDatabase] using htree),
    fun database hdatabase => ?_⟩
  rw [Contents.createDatabase] at hdatabase ⊢
  dsimp only at hdatabase ⊢
  rw [List.length_append, List.length_singleton]
  cases htree : contents.tree with
  | none =>
      rw [htree] at hdatabase
      cases hdatabase
  | some tree =>
      rw [htree, Option.map_some, Option.bind_some, Option.some.injEq] at hdatabase
      omega

/-- A step keeps the home sane, and a daemon that goes past it has found or made it. -/
theorem Proceeds.sane (h : Proceeds home index lockFree arguments contents phase contents' phase')
    (hsane : contents.Sane) (hhomed : phase.homed = true → contents.created = true) :
    contents'.Sane ∧ (contents.created = true → contents'.created = true) ∧
      (phase'.homed = true → contents'.created = true) := by
  cases h with
  | connected => exact ⟨hsane, id, fun hphase => by cases hphase⟩
  | validated => exact ⟨hsane, id, fun hphase => by cases hphase⟩
  | ensured => exact ⟨⟨fun _ => rfl, hsane.named⟩, fun _ => rfl, fun _ => rfl⟩
  | truncated => exact ⟨⟨hsane.created, hsane.named⟩, id, fun _ => hhomed rfl⟩
  | recorded => exact ⟨⟨hsane.created, hsane.named⟩, id, fun _ => hhomed rfl⟩
  | removed entry =>
      refine ⟨sane_mapTree hsane fun tree => ?_, id, fun _ => hhomed rfl⟩
      cases entry with
      | database => exact .inr rfl
      | overlay => exact .inl rfl
      | socket => exact .inl rfl
  | emptied =>
      refine ⟨⟨fun htree => ?_, fun database hdatabase => ?_⟩, id, fun _ => hhomed rfl⟩
      · cases htree
      · cases hdatabase
  | created =>
      refine ⟨⟨fun _ => hhomed rfl, fun database hdatabase => ?_⟩, id, fun _ => hhomed rfl⟩
      cases hdatabase
  | databaseCreated => exact ⟨sane_createDatabase hsane _, id, fun _ => hhomed rfl⟩
  | overlayOpened =>
      exact ⟨sane_mapTree hsane fun tree => .inl rfl, id, fun _ => hhomed rfl⟩
  | databaseMissing => exact ⟨sane_createDatabase hsane _, id, fun _ => hhomed rfl⟩
  | schemaCreated => exact ⟨sane_writeDatabase hsane _ _, id, fun _ => hhomed rfl⟩
  | versionRecorded => exact ⟨sane_writeDatabase hsane _ _, id, fun _ => hhomed rfl⟩
  | initialized => exact ⟨sane_writeDatabase hsane _ _, id, fun _ => hhomed rfl⟩
  | logged => exact ⟨⟨hsane.created, hsane.named⟩, id, fun _ => hhomed rfl⟩
  | moved _ database session session' move hphase haccepts hstep =>
      have hwritten := sane_writeDatabase hsane database
        fun file => { file with tables := some session'.session.store.database }
      refine ⟨⟨hwritten.created, hwritten.named⟩, id, fun _ => hhomed ?_⟩
      cases phase with
      | loadRoot | mountFuse | bindSocket | restrictSocket | serving => rfl
      | _ => cases haccepts
  | bound => exact ⟨sane_mapTree hsane fun tree => .inl rfl, id, fun _ => hhomed rfl⟩
  | closed control control' database session called session' =>
      have hwritten := sane_writeDatabase hsane database
        fun file => { file with tables := some session'.session.store.database }
      exact ⟨⟨hwritten.created, hwritten.named⟩, id, fun _ => hhomed rfl⟩
  | socketRemoved control control' database session contents' removed hcontents =>
      obtain rfl | rfl := hcontents
      · exact ⟨hsane, id, fun _ => hhomed rfl⟩
      · exact ⟨sane_mapTree hsane fun tree => .inl rfl, id, fun _ => hhomed rfl⟩
  | _ => exact ⟨hsane, id, fun _ => hhomed rfl⟩

end Preservation

/-! ### The invariant -/

/-- What every step of every daemon keeps. -/
structure Sound (daemons : Daemons) : Prop where
  held : Lock.Held Process.holds daemons.shared.lock daemons.threads
  sane : daemons.shared.contents.Sane
  homed : ∀ process ∈ daemons.threads, process.phase.homed = true →
    daemons.shared.contents.created = true
  fits : ∀ (i : ℕ) process, daemons.threads[i]? = some process → process.holds = true →
    Fits i process.arguments daemons.shared.contents process.phase
  filed : ∀ (d : ℕ) file j, daemons.shared.contents.databases[d]? = some file →
    file.origin = .daemon j →
    ∃ process, daemons.threads[j]? = some process ∧ Wrote d file process.phase
  single : Single daemons.shared.contents.databases

theorem sound_start {contents : Contents} (h : contents.Found) : Sound (start contents) where
  held := Lock.held_nil _
  sane := h.toSane
  homed := fun process hprocess => by cases hprocess
  fits := fun i process hi => by cases hi
  filed := by
    intro d file j hfile horigin
    rw [h.databases file (List.mem_of_getElem? hfile)] at horigin
    cases horigin
  single := by
    intro d d' file file' j hfile hfile' horigin
    rw [h.databases file (List.mem_of_getElem? hfile)] at horigin
    cases horigin

theorem Process.holds_of_alive {process : Process} (halive : process.exit = none) :
    process.holds = process.phase.holding := by
  rw [Process.holds, halive]
  rfl

/-- The files after a step are what their makers left in them. -/
theorem Files.filed {i : ℕ} {process : Process} {phase' : Phase} {threads : List Process}
    {databases databases' : List DatabaseFile}
    (h : Files i process.phase phase' databases databases')
    (hi : threads[i]? = some process)
    (hfiled : ∀ (d : ℕ) file j, databases[d]? = some file → file.origin = .daemon j →
      ∃ process, threads[j]? = some process ∧ Wrote d file process.phase)
    (hsingle : Single databases) :
    ∀ (d : ℕ) file j, databases'[d]? = some file → file.origin = .daemon j →
      ∃ process', (threads.set i { process with phase := phase' })[j]? = some process' ∧
        Wrote d file process'.phase := by
  -- A file of another daemon is untouched; for one of this daemon the step says what it wrote.
  have hothers : ∀ (d : ℕ) (file : DatabaseFile) (j : ℕ), databases[d]? = some file →
      file.origin = .daemon j → (j = i → Wrote d file process.phase → Wrote d file phase') →
      ∃ process', (threads.set i { process with phase := phase' })[j]? = some process' ∧
        Wrote d file process'.phase := by
    intro d file j hfile horigin hown
    obtain ⟨maker, hmaker, hwrote⟩ := hfiled d file j hfile horigin
    by_cases hj : j = i
    · subst hj
      rw [hi, Option.some.injEq] at hmaker
      exact ⟨_, Pool.getElem?_set_same hi _, hown rfl (hmaker ▸ hwrote)⟩
    · exact ⟨maker, by rw [List.getElem?_set_ne (Ne.symm hj), hmaker], hwrote⟩
  intro d file j hfile horigin
  cases h with
  | kept hwrote =>
      refine hothers d file j hfile horigin fun hj => ?_
      exact hwrote d file hfile (hj ▸ horigin)
  | made hnone hwrote =>
      obtain hold | rfl := Pool.getElem?_append_cases hfile
      · exact hothers d file j hold horigin fun _ hwrote => absurd hwrote (hnone d file)
      · cases horigin
        exact ⟨_, Pool.getElem?_set_same hi _, hwrote d⟩
  | written made f hf hmade hwrote =>
      rw [List.getElem?_modify, Option.map_eq_map, Option.map_eq_some_iff] at hfile
      obtain ⟨old, hold, hfile⟩ := hfile
      by_cases hd : made = d
      · rw [if_pos hd] at hfile
        subst hd hfile
        rw [hf] at horigin
        obtain ⟨mine, hmine, horigin'⟩ := hmade
        rw [hold, Option.some.injEq] at hmine
        rw [← hmine, horigin, Origin.daemon.injEq] at horigin'
        subst horigin'
        obtain ⟨maker, hmaker, hwritten⟩ := hfiled made old j hold horigin
        rw [hi, Option.some.injEq] at hmaker
        exact ⟨_, Pool.getElem?_set_same hi _, hwrote made old (hmaker ▸ hwritten)⟩
      · rw [if_neg hd] at hfile
        subst hfile
        refine hothers d old j hold horigin fun hj _ => ?_
        obtain ⟨mine, hmine, horigin'⟩ := hmade
        exact absurd (hsingle made d mine old i hmine hold horigin' (hj ▸ horigin)) hd

theorem Files.single {i : ℕ} {process : Process} {phase' : Phase} {threads : List Process}
    {databases databases' : List DatabaseFile}
    (h : Files i process.phase phase' databases databases')
    (hi : threads[i]? = some process)
    (hfiled : ∀ (d : ℕ) file j, databases[d]? = some file → file.origin = .daemon j →
      ∃ process, threads[j]? = some process ∧ Wrote d file process.phase)
    (hsingle : Single databases) : Single databases' := by
  cases h with
  | kept hwrote => exact hsingle
  | made hnone hwrote =>
      have hfresh : ∀ (d : ℕ) (file : DatabaseFile), databases[d]? = some file →
          file.origin ≠ .daemon i := by
        intro d file hfile horigin
        obtain ⟨maker, hmaker, hwrote⟩ := hfiled d file i hfile horigin
        rw [hi, Option.some.injEq] at hmaker
        exact hnone d file (hmaker ▸ hwrote)
      intro d d' file file' j hfile hfile' horigin horigin'
      rw [List.getElem?_append] at hfile hfile'
      split at hfile
      · split at hfile'
        · exact hsingle d d' file file' j hfile hfile' horigin horigin'
        · next hd' =>
            rw [List.getElem?_singleton] at hfile'
            split at hfile'
            · cases hfile'
              cases horigin'
              exact absurd horigin (hfresh d file hfile)
            · cases hfile'
      · next hd =>
          rw [List.getElem?_singleton] at hfile
          split at hfile
          · next hlast =>
              cases hfile
              cases horigin
              split at hfile'
              · exact absurd horigin' (hfresh d' file' hfile')
              · next hd' =>
                  rw [List.getElem?_singleton] at hfile'
                  split at hfile'
                  · omega
                  · cases hfile'
          · cases hfile
  | written made f hf hmade hwrote =>
      intro d d' file file' j hfile hfile' horigin horigin'
      rw [List.getElem?_modify, Option.map_eq_map, Option.map_eq_some_iff] at hfile hfile'
      obtain ⟨old, hold, rfl⟩ := hfile
      obtain ⟨old', hold', rfl⟩ := hfile'
      have hsame : ∀ (k : ℕ) (other : DatabaseFile),
          (if made = k then f other else other).origin = other.origin := by
        intro k other
        split
        · exact hf other
        · rfl
      rw [hsame] at horigin horigin'
      exact hsingle d d' old old' j hold hold' horigin horigin'

/-- A daemon that does not take the lock from another leaves the disk fit for the one that
holds it. -/
theorem Fits.unlocked {index : ℕ} {arguments : Arguments} {contents contents' : Contents}
    {phase : Phase} (h : Fits index arguments contents phase)
    (hcontents : contents' = contents ∨ contents' = contents.withHome ∨
      contents' = contents.dropSocket) : Fits index arguments contents' phase := by
  obtain rfl | rfl | rfl := hcontents
  · exact h
  · exact h.withHome
  · exact h.dropSocket

section Run

variable [Uuid] [Sha256] [Prost] {home : PathBuf} {daemons daemons' : Daemons}

theorem Sound.steps (h : Sound daemons) (hsteps : Steps home daemons daemons') :
    Sound daemons' := by
  have hheld := hsteps.held h.held
  cases hsteps with
  | started arguments =>
      refine ⟨hheld, h.sane, ?_, ?_, ?_, h.single⟩
      · intro process hprocess hhomed
        obtain hold | hnew := List.mem_append.mp hprocess
        · exact h.homed process hold hhomed
        · rw [List.mem_singleton.mp hnew] at hhomed
          cases hhomed
      · intro i process hi hholds
        obtain hold | rfl := Pool.getElem?_append_cases hi
        · exact h.fits i process hold hholds
        · cases hholds
      · intro d file j hfile horigin
        obtain ⟨process, hj, hwrote⟩ := h.filed d file j hfile horigin
        refine ⟨process, ?_, hwrote⟩
        rw [List.getElem?_append_left (List.getElem?_eq_some_iff.mp hj).1, hj]
  | homed =>
      exact ⟨hheld, ⟨fun _ => rfl, h.sane.named⟩, fun _ _ _ => rfl,
        fun i process hi hholds => (h.fits i process hi hholds).withHome, h.filed, h.single⟩
  | proceeded i process contents' phase' hi halive hproceeds =>
      have hholds := Process.holds_of_alive halive
      have hfits : process.phase.holding = true →
          Fits i process.arguments daemons.shared.contents process.phase := by
        intro hholding
        exact h.fits i process hi (hholds.trans hholding)
      have hfiles := hproceeds.files hfits h.single
      obtain ⟨hsane, hcreated, hhomed⟩ := hproceeds.sane h.sane
        (h.homed process (List.mem_of_getElem? hi))
      refine ⟨hheld, hsane, ?_, ?_, hfiles.filed hi h.filed h.single,
        hfiles.single hi h.filed h.single⟩
      · intro other hother hphase
        obtain hold | rfl := List.mem_or_eq_of_mem_set hother
        · exact hcreated (h.homed other hold hphase)
        · exact hhomed hphase
      · intro j other hj hother
        obtain ⟨rfl, rfl⟩ | ⟨hne, hold⟩ := Pool.getElem?_set_cases hj
        · refine hproceeds.fits hfits ?_
          rwa [Process.holds_of_alive (by exact halive)] at hother
        · -- the other daemon has the lock, so this one does not
          have hfree : process.phase.holding = false := by
            rw [← Bool.not_eq_true]
            intro hholding
            exact hne (h.held.unique hold hother hi (hholds.trans hholding))
          exact (h.fits j other hold hother).unlocked (hproceeds.unlocked hfree)
  | ended i process contents' exit hi halive hends =>
      have hholds := Process.holds_of_alive halive
      have hmem := List.mem_of_getElem? hi
      refine ⟨hheld, ⟨?_, ?_⟩, ?_, ?_, ?_, ?_⟩
      · intro hsome
        refine hends.created (h.sane.created ?_)
        rw [← Option.isSome_map (f := Tree.database), ← hends.tree, Option.isSome_map]
        exact hsome
      · intro database hdatabase
        dsimp only at hdatabase ⊢
        rw [hends.database] at hdatabase
        rw [hends.databases]
        exact h.sane.named database hdatabase
      · intro other hother hphase
        obtain hold | rfl := List.mem_or_eq_of_mem_set hother
        · exact hends.created (h.homed other hold hphase)
        · exact hends.created (h.homed process hmem hphase)
      · intro j other hj hother
        obtain ⟨rfl, rfl⟩ | ⟨hne, hold⟩ := Pool.getElem?_set_cases hj
        · cases hother
        · have hfree : process.phase.holding = false := by
            rw [← Bool.not_eq_true]
            intro hholding
            exact hne (h.held.unique hold hother hi (hholds.trans hholding))
          exact (h.fits j other hold hother).unlocked
            ((hends.unlocked hfree).imp_right .inl)
      · intro d file j hfile horigin
        dsimp only at hfile
        rw [hends.databases] at hfile
        obtain ⟨maker, hmaker, hwrote⟩ := h.filed d file j hfile horigin
        by_cases hj : j = i
        · subst hj
          rw [hi, Option.some.injEq] at hmaker
          exact ⟨_, Pool.getElem?_set_same hi _, hmaker ▸ hwrote⟩
        · exact ⟨maker, by rw [List.getElem?_set_ne (Ne.symm hj), hmaker], hwrote⟩
      · dsimp only
        rw [hends.databases]
        exact h.single

theorem sound_of_reached (h : Reached home daemons) : Sound daemons := by
  obtain ⟨contents, moves, hfound, hrun⟩ := h
  exact Transition.run_invariant (fun _ _ _ hsound hstep => hsound.steps (steps_of_step hstep))
    moves _ _ (sound_start hfound) hrun

end Run

end Home

end RemoteFs
