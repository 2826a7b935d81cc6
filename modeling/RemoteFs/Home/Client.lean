import RemoteFs.Home.Inspect
import RemoteFs.Library.Client

/-!
# The client of a daemon

Commands talk to the daemon of a home through its control socket. A probe connects to the
daemon whose socket is there, checks that it speaks the same protocol and asks for its status.
Other processes run between any two of these, so the daemon may end while it is asked, and a
channel that broke may come to another daemon. A request or its answer can be lost.
-/

namespace RemoteFs

open Cas (Status)

/-! ### Texts -/

namespace Session

def SessionError.display : SessionError → String
  | .internalError reason => s!"session internal error: {reason}"
  | .failedPreconditionError reason =>
      s!"current session state does not permit this operation: {reason}"
  | .notFound reason => s!"not found: {reason}"
  | .notDirectory reason => s!"not a directory: {reason}"
  | .isDirectory reason => s!"is a directory: {reason}"
  | .database operation dbpath source =>
      s!"SQLite {operation} failed on db {PathBuf.display dbpath}: {source}"
  | .context operation source => s!"{operation}: {source.display}"

end Session

namespace PathBuf

/-- What paths are compared by: repeated separators and a `.` below the first segment do not
count. The root is a component of its own. -/
def components : PathBuf → List OsStr
  | [] => []
  | first :: rest =>
      (if first = .utf8 "" then if rest = [] then [] else [.utf8 "/"] else [first]) ++
        rest.filter fun segment => segment ≠ .utf8 "" ∧ segment ≠ .utf8 "."

theorem display_of_toStr {path : PathBuf} {text : String} (h : path.toStr = some text) :
    path.display = text := by
  obtain ⟨texts, htexts, rfl⟩ := Option.map_eq_some_iff.mp h
  rw [eq_map_of_mapM htexts, display, List.map_map]
  congr 1
  exact List.map_id texts

end PathBuf

namespace Home

/-! ### Errors -/

inductive ClientError where
  | connect (endpoint : PathBuf) (message : String)
  | incompatibleProtocol (expected actual : UInt32)
  | remote (code message : String)
  | invalidResponse (value message : String)
  deriving DecidableEq, Repr

namespace ClientError

def code : ClientError → String
  | .connect _ _ => "daemon_unavailable"
  | .incompatibleProtocol _ _ => "daemon_protocol"
  | .remote code _ => code
  | .invalidResponse _ _ => "daemon_invalid_response"

/-- Whether the daemon endpoint could not be reached. -/
def isUnavailable : ClientError → Bool
  | .connect _ _ => true
  | .remote code _ => code = "daemon_unavailable"
  | _ => false

def display : ClientError → String
  | .connect endpoint message =>
      s!"connect to daemon endpoint `{PathBuf.display endpoint}`: {message}"
  | .incompatibleProtocol expected actual =>
      s!"daemon protocol version {actual} is incompatible; client requires {expected}"
  | .remote code message => s!"daemon request failed ({code}): {message}"
  | .invalidResponse value message =>
      s!"daemon returned invalid root digest `{value}`: {message}"

end ClientError

def remoteError (status : Status) : ClientError :=
  .remote
    (match status.code with
    | .unavailable => "daemon_unavailable"
    | .failedPrecondition => "daemon_precondition"
    | .unimplemented => "daemon_unsupported"
    | .invalidArgument => "daemon_invalid_request"
    | _ => "daemon_error")
    status.message

/-! ### Answers -/

structure SessionStatus where
  rootDigest : Digest
  mountpoint : PathBuf
  daemonPid : UInt32
  controlSocket : PathBuf
  dirty : Bool
  dirtyFiles : ℕ
  snapshotBlockers : List String
  deriving DecidableEq

abbrev Reply := Except Status Daemon.Response

/-- What the client makes of an answer to `check_protocol`, if it is one. -/
def readyReply : Reply → Option (Except ClientError Unit)
  | .error status => some (.error (remoteError status))
  | .ok (.protocol actual) => some
      (if actual ≠ Daemon.protocolVersion then
        .error (.incompatibleProtocol Daemon.protocolVersion actual)
      else .ok ())
  | .ok _ => none

def statusReply : Reply → Option (Except ClientError SessionStatus)
  | .error status => some (.error (remoteError status))
  | .ok (.status response) => some
      (match Digest.fromStr response.rootDigest with
      | .error error => .error (.invalidResponse response.rootDigest error.display)
      | .ok rootDigest => .ok
          { rootDigest := rootDigest
            mountpoint := PathBuf.ofText response.mountpoint
            daemonPid := response.daemonPid
            controlSocket := PathBuf.ofText response.controlSocket
            dirty := response.dirty
            dirtyFiles := response.dirtyFiles
            snapshotBlockers := response.snapshotBlockers })
  | .ok _ => none

/-- What the client makes of an answer to `shutdown`. -/
def shutdownReply : Reply → Option (Except ClientError Unit)
  | .error status => some (.error (remoteError status))
  | .ok .shutdown => some (.ok ())
  | .ok _ => none

/-! ### Requests -/

/-- Whether the daemon has bound its socket and still listens on it. -/
def Phase.listening : Phase → Bool
  | .restrictSocket _ _ => true
  | .serving control _ _ => control.serve.alive
  | _ => false

/-- The daemon a new connection to the control endpoint comes to. -/
def Daemons.listener (daemons : Daemons) : Option ℕ :=
  match daemons.shared.contents.tree.bind Tree.socket with
  | some (.daemon i) =>
      match daemons.threads[i]? with
      | some process =>
          if process.exit.isNone && process.phase.listening then some i else none
      | none => none
  | _ => none

section Requests

variable [Uuid] [Sha256] [Prost] (home : PathBuf) (daemons : Daemons)

def Daemons.answer (i : ℕ) (request : Daemon.Request) : Option (Reply × Daemons) :=
  match daemons.threads[i]?.map Process.phase with
  | some (.serving control _ _) =>
      (step home daemons (.act i (.control (.request request)))).map fun daemons =>
        ((control.handle request).1, daemons)
  | _ => none

inductive Delivery where
  | answered
  | lost (status : Status)

def Daemons.call (i : ℕ) (request : Daemon.Request) : Delivery → Option (Reply × Daemons)
  | .answered => daemons.answer home i request
  | .lost status => some (.error status, daemons)

/-! ### Probes -/

/-- Where `daemon_client` and the status request after it are. -/
inductive Probe where
  | connecting
  | checking (daemon : ℕ)
  | querying (daemon : ℕ)

/-- A probe goes on, or ends with the status and the daemon its channel goes to. -/
inductive Probed where
  | going (probe : Probe)
  | done (result : Except ClientError (ℕ × SessionStatus))

inductive ProbeEvent where
  | connect (failure : Option String)
  | reconnect
  | call (delivery : Delivery)

omit [Uuid] [Sha256] [Prost] in
def connect (failure : Option String) : Option Probed :=
  match daemons.shared.contents.controlEndpoint home with
  | .error error => some (.done (.error (.connect
      ((home.join (.utf8 "active")).join (.utf8 "control.sock"))
      s!"derive session control endpoint: {error.display}")))
  | .ok endpoint =>
      match failure with
      | some message => some (.done (.error (.connect endpoint message)))
      | none => daemons.listener.map fun i => .going (.checking i)

def Probe.step : Probe → ProbeEvent → Option (Daemons × Probed)
  | .connecting, .connect failure =>
      (Home.connect home daemons failure).map fun probed => (daemons, probed)
  | .checking _, .reconnect => daemons.listener.map fun i => (daemons, .going (.checking i))
  | .checking i, .call delivery => do
      let (reply, daemons) ←
        daemons.call home i (.checkProtocol Daemon.protocolVersion) delivery
      let result ← readyReply reply
      match result with
      | .ok () => some (daemons, .going (.querying i))
      | .error error => some (daemons, .done (.error error))
  | .querying _, .reconnect => daemons.listener.map fun i => (daemons, .going (.querying i))
  | .querying i, .call delivery => do
      let (reply, daemons) ← daemons.call home i (.status Daemon.protocolVersion) delivery
      let result ← statusReply reply
      some (daemons, .done (result.map fun status => (i, status)))
  | _, _ => none

/-! ### What a probe learns -/

/-- The daemon with an index serves its mount and has not been asked to stop. -/
structure Serves (i : ℕ) (process : Process) : Prop where
  there : daemons.threads[i]? = some process
  alive : process.exit = none
  holds : process.holds = true
  serving : ∃ control database session, process.phase = .serving control database session ∧
    control.slot = some (process.arguments.resources home) ∧ mounted control.serve = true

def Process.status (process : Process) : SessionStatus where
  rootDigest := process.arguments.rootDigest
  mountpoint := process.arguments.mountpoint
  daemonPid := process.arguments.pid
  controlSocket := PathBuf.ofText (PathBuf.display (SessionLayout.new home).controlEndpoint)
  dirty := false
  dirtyFiles := 0
  snapshotBlockers := ["snapshot is not implemented"]

variable {home daemons} {daemons' : Daemons} {i : ℕ} {request : Daemon.Request} {reply : Reply}

theorem answer_cases (h : daemons.answer home i request = some (reply, daemons')) :
    ∃ process control database session, daemons.threads[i]? = some process ∧
      process.exit = none ∧ process.phase = .serving control database session ∧
      reply = (control.handle request).1 ∧
      step home daemons (.act i (.control (.request request))) = some daemons' := by
  unfold Daemons.answer at h
  split at h
  · next control database session hphase =>
      obtain ⟨next, hstep, heq⟩ := Option.map_eq_some_iff.mp h
      cases heq
      obtain ⟨process, hi, hserving⟩ := Option.map_eq_some_iff.mp hphase
      refine ⟨process, control, database, session, hi, ?_, hserving, rfl, hstep⟩
      rw [step, Pool.step, hi, Option.bind_some, act] at hstep
      cases hexit : process.exit with
      | none => rfl
      | some exit =>
          rw [hexit] at hstep
          cases hstep
  · cases h

/-- What a request does to the daemons, one of them may do by itself. -/
theorem call_conforms {delivery : Delivery}
    (h : daemons.call home i request delivery = some (reply, daemons')) :
    ∃ moves, Transition.run (step home) daemons moves = some daemons' := by
  cases delivery with
  | answered =>
      obtain ⟨process, control, database, session, -, -, -, -, hstep⟩ := answer_cases h
      exact ⟨[.act i (.control (.request request))],
        (Transition.run_cons_eq_some_iff _ _ _ _ _).mpr ⟨daemons', hstep, rfl⟩⟩
  | lost status =>
      cases h
      exact ⟨[], rfl⟩

theorem Probe.step_conforms {probe : Probe} {event : ProbeEvent} {probed : Probed}
    (h : probe.step home daemons event = some (daemons', probed)) :
    ∃ moves, Transition.run (Home.step home) daemons moves = some daemons' := by
  unfold Probe.step at h
  split at h
  · obtain ⟨next, -, heq⟩ := Option.map_eq_some_iff.mp h
    cases heq
    exact ⟨[], rfl⟩
  · obtain ⟨next, -, heq⟩ := Option.map_eq_some_iff.mp h
    cases heq
    exact ⟨[], rfl⟩
  · obtain ⟨⟨reply, after⟩, hcall, h⟩ := Option.bind_eq_some_iff.mp h
    obtain ⟨result, -, h⟩ := Option.bind_eq_some_iff.mp h
    have hafter : after = daemons' := by
      cases result <;> cases h <;> rfl
    exact hafter ▸ call_conforms hcall
  · obtain ⟨next, -, heq⟩ := Option.map_eq_some_iff.mp h
    cases heq
    exact ⟨[], rfl⟩
  · obtain ⟨⟨reply, after⟩, hcall, h⟩ := Option.bind_eq_some_iff.mp h
    obtain ⟨result, -, h⟩ := Option.bind_eq_some_iff.mp h
    cases h
    exact call_conforms hcall
  · cases h

/-- The resources of a daemon are where its requests look for them only while it serves. -/
theorem Running.of_slot {arguments : Arguments} {control : Daemon} {database : ℕ}
    {session : Session.System.State} {resources : Daemon.DaemonResources}
    (h : Running home arguments (.serving control database session))
    (hslot : control.slot = some resources) :
    resources = arguments.resources home ∧ mounted control.serve = true := by
  have howned := h.owned control database session rfl
  have hplaces := howned.places_eq
  have hconsistent := howned.consistent
  have hone : resources = arguments.resources home ∧ control.channel = [] ∧
      control.serve.owned = [] ∧ control.released = [] := by
    rw [Daemon.places, hslot] at hplaces
    simpa [and_assoc] using hplaces
  obtain ⟨hresources, -, hserve, hreleased⟩ := hone
  refine ⟨hresources, ?_⟩
  rw [Daemon.Consistent] at hconsistent
  cases hposition : control.serve with
  | selecting => rfl
  | detaching finishedServer => rfl
  | receiving finishedServer => rfl
  | releasing step owned finishedServer =>
      rw [hposition] at hserve
      cases hserve
  | draining result finishedServer =>
      rw [hposition] at hconsistent
      exact absurd hreleased hconsistent.1
  | returned result =>
      rw [hposition] at hconsistent
      exact absurd hreleased hconsistent.1
  | panicked =>
      rw [hposition] at hconsistent
      exact hconsistent.elim

omit [Uuid] [Sha256] [Prost] in
theorem keepsSession_of_mounted {serve : Daemon.Serve} (h : mounted serve = true) :
    keepsSession serve = true := by
  cases serve with
  | releasing step resources finishedServer =>
      cases step with
      | unmount => rfl
      | _ => cases h
  | _ => first | rfl | cases h

theorem serves_of_slot (hreached : Reached home daemons) {process : Process} {control : Daemon}
    {database : ℕ} {session : Session.System.State} {resources : Daemon.DaemonResources}
    (hi : daemons.threads[i]? = some process) (halive : process.exit = none)
    (hphase : process.phase = .serving control database session)
    (hslot : control.slot = some resources) :
    resources = process.arguments.resources home ∧ Serves home daemons i process := by
  have hrunning := (running_of_reached hreached).2 i process hi
  rw [hphase] at hrunning
  obtain ⟨rfl, hmounted⟩ := hrunning.of_slot hslot
  refine ⟨rfl, hi, halive, ?_, control, database, session, hphase, hslot, hmounted⟩
  rw [Process.holds_of_alive halive, hphase]
  exact keepsSession_of_mounted hmounted

omit [Uuid] [Sha256] [Prost] in
theorem slot_of_statusReply {control : Daemon} {status : SessionStatus}
    (h : statusReply (control.handle (.status Daemon.protocolVersion)).1 = some (.ok status)) :
    ∃ resources, control.slot = some resources ∧
      status.rootDigest = resources.session.rootDigest ∧
      status.mountpoint = PathBuf.ofText (PathBuf.display resources.session.mountpoint) ∧
      status.daemonPid = resources.session.daemonPid ∧
      status.controlSocket =
        PathBuf.ofText (PathBuf.display resources.session.controlEndpoint) ∧
      status.dirty = false ∧ status.dirtyFiles = 0 ∧
      status.snapshotBlockers = ["snapshot is not implemented"] := by
  rw [Daemon.handle, Daemon.status, Daemon.activeInfo] at h
  cases hslot : control.slot with
  | none =>
      rw [hslot] at h
      cases h
  | some resources =>
      have hvalid : Daemon.validateProtocol Daemon.protocolVersion = .ok () := rfl
      rw [hslot] at h
      dsimp only at h
      rw [hvalid, Result.ok_bind, Result.ok_bind, statusReply] at h
      dsimp only at h
      rw [Digest.fromStr_display] at h
      cases h
      exact ⟨resources, rfl, rfl, rfl, rfl, rfl, rfl, rfl, rfl⟩

theorem Opened.mountpoint_eq {arguments : Arguments} {session : Session.System.State}
    (h : Opened home arguments session) :
    PathBuf.ofText (PathBuf.display arguments.mountpoint) = arguments.mountpoint := by
  obtain ⟨text, htext, -⟩ := h.stored
  rw [PathBuf.display_of_toStr htext]
  exact PathBuf.ofText_of_toStr htext arguments.segmented

/-- A probe that ends with a status has asked a daemon that serves, which said so. -/
theorem Probe.step_done (hreached : Reached home daemons) {probe : Probe} {event : ProbeEvent}
    {status : SessionStatus}
    (h : probe.step home daemons event = some (daemons', .done (.ok (i, status)))) :
    ∃ process, Serves home daemons i process ∧ status = process.status home := by
  unfold Probe.step at h
  split at h
  · obtain ⟨next, hconnect, heq⟩ := Option.map_eq_some_iff.mp h
    cases heq
    unfold Home.connect at hconnect
    split at hconnect
    · cases hconnect
    · split at hconnect
      · cases hconnect
      · obtain ⟨j, -, heq⟩ := Option.map_eq_some_iff.mp hconnect
        cases heq
  · obtain ⟨next, -, heq⟩ := Option.map_eq_some_iff.mp h
    cases heq
  · obtain ⟨⟨reply, after⟩, -, h⟩ := Option.bind_eq_some_iff.mp h
    obtain ⟨result, -, h⟩ := Option.bind_eq_some_iff.mp h
    cases result <;> cases h
  · obtain ⟨next, -, heq⟩ := Option.map_eq_some_iff.mp h
    cases heq
  · next asked delivery =>
      obtain ⟨⟨reply, after⟩, hcall, h⟩ := Option.bind_eq_some_iff.mp h
      obtain ⟨result, hreply, h⟩ := Option.bind_eq_some_iff.mp h
      cases result with
      | error e => cases h
      | ok answered =>
          cases h
          cases delivery with
          | lost failure =>
              cases hcall
              cases hreply
          | answered =>
              obtain ⟨process, control, database, session, hi, halive, hphase, rfl, -⟩ :=
                answer_cases hcall
              obtain ⟨resources, hslot, hdigest, hmountpoint, hpid, hsocket, hclean, hfiles,
                hblockers⟩ := slot_of_statusReply hreply
              obtain ⟨rfl, hserves⟩ := serves_of_slot hreached hi halive hphase hslot
              obtain ⟨hopened, -⟩ := ((running_of_reached hreached).2 i process hi).opened
                database session (by rw [hphase]; rfl)
              refine ⟨process, hserves, ?_⟩
              obtain ⟨rootDigest, mountpoint, daemonPid, controlSocket, dirty, dirtyFiles,
                snapshotBlockers⟩ := status
              dsimp only at hdigest hmountpoint hpid hsocket hclean hfiles hblockers
              have hpath := hopened.mountpoint_eq
              rw [Process.status, hdigest, hmountpoint, hpid, hsocket, hclean, hfiles, hblockers]
              dsimp only [Arguments.resources, Arguments.info]
              rw [hpath]
  · cases h

end Requests

end Home

end RemoteFs
