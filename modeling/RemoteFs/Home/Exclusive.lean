import RemoteFs.Home.Sessions

/-!
# One daemon owns the home

Whatever daemons are started in a home, however their steps interleave, wherever they fail and
whenever they are killed, at most one of them holds the session lock, and while it has a
session open the lock record, the session tree, the database, the cache and the trace log are
its own. Its session is one that `Session.System` can reach without any other daemon.
-/

namespace RemoteFs

open Session (InodeId failedPrecondition)

namespace Home

def Phase.logging : Phase → Bool
  | .loadRoot _ _ => true
  | .mountFuse _ _ => true
  | .bindSocket _ _ => true
  | .restrictSocket _ _ => true
  | .serving _ _ _ => true
  | _ => false

/-- The disk of a daemon with an open session. The socket is its own unless it is not bound or
was removed, and nobody has truncated the trace log since it did; the last lines of a daemon that
let go of the lock may still come to it. -/
structure Owns (index : ℕ) (process : Process) (contents : Contents) (database : ℕ)
    (session : Session.System.State) : Prop where
  record : contents.record = some process.arguments.record
  tree : ∃ socket, contents.tree =
      some { database := some database, overlay := true, socket := socket } ∧
    (socket = none ∨ socket = some (.daemon index))
  file : ∃ file, contents.databases[database]? = some file ∧ file.origin = .daemon index ∧
    file.version = schemaVersion ∧ file.tables = some session.session.store.database
  cacheFiles : contents.cacheFiles = session.cache.shared.files
  traceLog : process.phase.logging = true → contents.traceLog = some (.daemon index)

theorem Fits.traceLog {index : ℕ} {arguments : Arguments} {contents : Contents} {phase : Phase}
    (h : Fits index arguments contents phase) (hlogging : phase.logging = true) :
    contents.traceLog = some (.daemon index) := by
  cases phase with
  | loadRoot | mountFuse | bindSocket | restrictSocket | serving => exact h.2
  | _ => cases hlogging

theorem Sound.owns {daemons : Daemons} (h : Sound daemons) {i : ℕ} {process : Process}
    (hi : daemons.threads[i]? = some process) (hholds : process.holds = true) {database : ℕ}
    {session : Session.System.State}
    (hphase : process.phase.session = some (database, session)) :
    Owns i process daemons.shared.contents database session := by
  have hfits := h.fits i process hi hholds
  have hhosts := hfits.hosts hphase
  obtain ⟨socket, htree, hsocket⟩ := hhosts.placed.tree
  obtain ⟨file, hfile, horigin, hwrote⟩ := h.file hi hhosts.placed.file
  obtain ⟨-, hversion, htables⟩ := (wrote_of_session hphase).mp hwrote
  exact ⟨hhosts.record, ⟨socket, htree, hsocket.imp_right And.right⟩,
    ⟨file, hfile, horigin, hversion, htables⟩, hhosts.cacheFiles, hfits.traceLog⟩

/-- How a daemon ends that finds another one owning the home. -/
def refused (home : PathBuf) (arguments owner : Arguments) : Exit :=
  let path := (SessionLayout.new home).sessionLock
  opening arguments s!"acquire session lock {path.display}" (failedPrecondition
    (s!"acquire session lock {path.display}: another RemoteFS session owns it " ++
      s!"(pid {owner.pid}, session {owner.sessionId})"))

namespace Sample

def home : PathBuf :=
  [.utf8 "", .utf8 "rfs"]

def arguments : Arguments where
  rootDigest := Session.Cache.Sample.digest
  mountpoint := [.utf8 "", .utf8 "mnt"]
  pid := 7
  sessionId := "67e55044-10b1-426f-9247-bb680e5fe0c8"
  segmented := by
    refine ⟨by simp, fun text htext => ?_⟩
    simp only [List.mem_cons, OsStr.utf8.injEq, List.not_mem_nil, or_false] at htext
    obtain rfl | rfl := htext
    · decide
    · decide
  pid_fits := by decide

def opening : List Event :=
  [.connectCas none, .validateMountpoint (.ok true), .ensureHome none, .acquireLock none,
    .truncateRecord none, .writeRecord none, .removeTree none, .createTree none,
    .createDatabase none, .openCache none, .openOverlay none,
    .openDatabase Session.Sample.quiet, .createSchema Session.Sample.quiet,
    .recordVersion Session.Sample.quiet, .initializeDatabase Session.Sample.quiet 3,
    .initLogging none]

/-- The first load, with the blob of the root downloaded, and the construction of the rest. -/
def constructing : List Event :=
  [.session (.lock 0), .session (.proceed 0 Session.calm 0)] ++
    ([.check, .acquire, .enterGate, .recheck, .startPendingBlob none, .write [104, 105] (.ok 2),
      .finishStream none, .admitPendingBlob none, .unlock, .release,
      .read Session.Cache.Sample.reads] : List Session.Cache.Action).map
        (fun action => .session (.cache 0 action)) ++
    List.replicate 4 (.session (.proceed 0 Session.calm 0)) ++
    [.rootLoaded, .mountFuse none, .bindSocket none, .restrictSocket none]

/-- A daemon that serves, and another that comes to the lock. -/
def moves : List Move :=
  [.spawn arguments] ++ (opening ++ constructing).map (.act 0) ++ [.spawn arguments] ++
    [.act 1 (.connectCas none), .act 1 (.validateMountpoint (.ok true)),
      .act 1 (.ensureHome none)]

theorem found_absent : Contents.absent.Found where
  created := fun h => by cases h
  named := fun database h => by cases h
  databases := fun file hfile => by cases hfile
  socket := fun tree htree => by cases htree

/-- Whether a process has the lock, has not ended and is about to take the lock, and the file of
its session. -/
def progress (process : Process) : Bool × Bool × Bool × Option ℕ :=
  (process.holds, process.exit.isNone, process.phase matches .acquireLock,
    process.phase.session.map Prod.fst)

theorem moves_progress :
    letI : Uuid := Session.Sample.uuid
    letI : Sha256 := Session.Cache.Sample.sha256
    letI : Prost := Session.System.Sample.prost
    (Transition.run (step home) (start Contents.absent) moves).map
        (fun daemons => daemons.threads.map progress) =
      some [(true, true, false, some 0), (false, true, true, none)] := by
  decide +kernel

theorem moves_serving :
    letI : Uuid := Session.Sample.uuid
    letI : Sha256 := Session.Cache.Sample.sha256
    letI : Prost := Session.System.Sample.prost
    ∃ daemons p q session, Transition.run (step home) (start Contents.absent) moves =
        some daemons ∧ daemons.threads = [p, q] ∧ p.holds = true ∧
      p.phase.session = some (0, session) ∧ q.exit = none ∧ q.phase = .acquireLock := by
  obtain ⟨daemons, hrun, hprogress⟩ := Option.map_eq_some_iff.mp moves_progress
  obtain ⟨p, rest, hthreads, hp, hrest⟩ := List.map_eq_cons_iff.mp hprogress
  obtain ⟨q, rest, rfl, hq, hnil⟩ := List.map_eq_cons_iff.mp hrest
  obtain rfl := List.map_eq_nil_iff.mp hnil
  simp only [progress, Prod.mk.injEq] at hp hq
  obtain ⟨hholds, -, -, hsession⟩ := hp
  obtain ⟨-, halive, hlocking, -⟩ := hq
  obtain ⟨⟨_, session⟩, hphase, rfl⟩ := Option.map_eq_some_iff.mp hsession
  refine ⟨daemons, p, q, session, hrun, hthreads, hholds, hphase,
    Option.isNone_iff_eq_none.mp halive, ?_⟩
  split at hlocking
  · assumption
  · cases hlocking

end Sample

end Home

end RemoteFs
