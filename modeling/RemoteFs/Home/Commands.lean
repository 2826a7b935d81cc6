import RemoteFs.Home.Client
import RemoteFs.Home.History

/-!
# Commands

`rfs mount`, `rfs status` and `rfs unmount` as clients beside the daemons of a home. Each has a
phase, the next thing it does, and an event for what it meets there. Between two events the
daemons run, and so do other commands: what another command does to the daemons, they do by
themselves in the model.
-/

namespace RemoteFs

open Session (SessionError Sqlite)

namespace Home

/-! ### Errors -/

inductive CliError where
  | commandFailed (category message : String)
  deriving DecidableEq, Repr

def clientError (error : ClientError) : CliError :=
  .commandFailed error.code error.display

def stateErrorCategory : SessionError → String
  | .context _ source => stateErrorCategory source
  | .failedPreconditionError _ => "failed_precondition"
  | _ => "unknown_error"

def stateError (error : SessionError) : CliError :=
  .commandFailed (stateErrorCategory error) error.display

def daemonStart (message : String) : CliError :=
  .commandFailed "daemon_start" message

def daemonLogsHint (home : PathBuf) : String :=
  let stdio := home.join (.utf8 "rfsd_stdout_stderr.log")
  let trace := home.join (.utf8 "rfsd.log")
  s!"inspect daemon logs: {stdio.display}, {trace.display}"

section Commands

variable [Uuid] [Sha256] [Prost] (home : PathBuf)

/-! ### Mount -/

/-- What `rfs mount` does next. From `polling` on it has a child, the daemon it started. -/
inductive Mount where
  | createHome
  | checkingActive (probe : Probe)
  | locateDaemon
  | openStdioLog
  | spawnDaemon
  | polling (child : ℕ)
  | probing (child : ℕ) (probe : Probe)
  | elapsing (child : ℕ)
  | killing (child : ℕ) (error : CliError)
  | reaping (child : ℕ) (error : CliError)
  | returned (child : Option ℕ) (result : Except CliError SessionStatus)

inductive MountEvent where
  | createHome (failure : Option IoError)
  | probe (event : ProbeEvent)
  | locateDaemon (failure : Option String)
  | openStdioLog (failure : Option String)
  | spawn (arguments : Arguments) (failure : Option String)
  | tryWait (failure : Option IoError) (status : String)
  | deadline (passed : Bool)
  | kill (failed : Bool)
  | wait (failed : Bool)

def Mount.failed (error : CliError) : Mount :=
  .returned none (.error error)

/-- What `ensure_no_active_daemon` makes of its probe. -/
def ensureNoActiveDaemon : Probed → Mount
  | .going probe => .checkingActive probe
  | .done (.ok (_, status)) => .failed (.commandFailed "session_active"
      (s!"a RemoteFS session is already active at {PathBuf.display status.mountpoint} " ++
        s!"(daemon pid {status.daemonPid}); run `rfs unmount` first"))
  | .done (.error error) =>
      if error.isUnavailable then .locateDaemon else .failed (clientError error)

def probedReady (rootDigest : Digest) (mountpoint : PathBuf) (child : ℕ) : Probed → Mount
  | .going probe => .probing child probe
  | .done (.error _) => .elapsing child
  | .done (.ok (_, status)) =>
      if status.rootDigest ≠ rootDigest ∨
          status.mountpoint.components ≠ PathBuf.components mountpoint then
        .killing child
          (daemonStart "daemon readiness identity did not match requested mount")
      else .returned (some child) (.ok status)

def mount (rootDigest : Digest) (mountpoint : PathBuf) (daemons : Daemons) :
    Mount → MountEvent → Option (Daemons × Mount)
  | .createHome, .createHome failure =>
      if daemons.shared.contents.created then some (daemons, .checkingActive .connecting)
      else
        match failure with
        | some source => some (daemons, .failed (daemonStart
            s!"create RemoteFS home `{PathBuf.display home}`: {source}"))
        | none =>
            (step home daemons .createHome).map fun daemons =>
              (daemons, .checkingActive .connecting)
  | .checkingActive probe, .probe event =>
      (probe.step home daemons event).map fun next => (next.1, ensureNoActiveDaemon next.2)
  | .locateDaemon, .locateDaemon failure =>
      match failure with
      | some message => some (daemons, .failed (daemonStart message))
      | none => some (daemons, .openStdioLog)
  | .openStdioLog, .openStdioLog failure =>
      match failure with
      | some message => some (daemons, .failed (daemonStart message))
      | none => some (daemons, .spawnDaemon)
  | .spawnDaemon, .spawn arguments failure =>
      match failure with
      | some message => some (daemons, .failed (daemonStart message))
      | none =>
          if arguments.rootDigest = rootDigest ∧ arguments.mountpoint = mountpoint then
            (step home daemons (.spawn arguments)).map fun after =>
              (after, .polling daemons.threads.length)
          else none
  | .polling child, .tryWait failure status =>
      match failure with
      | some source => some (daemons, .returned (some child) (.error (daemonStart
          s!"inspect daemon process: {source}")))
      | none =>
          if daemons.ended child then
            some (daemons, .returned (some child) (.error (daemonStart
              (s!"daemon exited before mount readiness with status {status}; " ++
                daemonLogsHint home))))
          else some (daemons, .probing child .connecting)
  | .probing child probe, .probe event =>
      (probe.step home daemons event).map fun next =>
        (next.1, probedReady rootDigest mountpoint child next.2)
  | .elapsing child, .deadline passed =>
      if passed then
        some (daemons, .killing child (daemonStart
          ("daemon did not validate the root, mount FUSE, and open its control socket " ++
            s!"within 15 seconds; {daemonLogsHint home}")))
      else some (daemons, .polling child)
  | .killing child error, .kill failed =>
      if failed ∨ daemons.ended child then some (daemons, .reaping child error)
      else (step home daemons (.act child .kill)).map fun daemons => (daemons, .reaping child error)
  | .reaping child error, .wait failed =>
      if failed ∨ daemons.ended child then
        some (daemons, .returned (some child) (.error error))
      else none
  | _, _ => none

/-! ### Status -/

inductive Report where
  | active (status : SessionStatus)
  | none
  | retained (session : Daemon.SessionInfo)

inductive StatusPhase where
  | probing (probe : Probe)
  | inspecting
  | returned (result : Except CliError Report)

inductive StatusEvent where
  | probe (event : ProbeEvent)
  | inspect (sqlite : Sqlite)

def probedStatus : Probed → StatusPhase
  | .going probe => .probing probe
  | .done (.ok (_, status)) => .returned (.ok (.active status))
  | .done (.error error) =>
      if error.isUnavailable then .inspecting else .returned (.error (clientError error))

/-- What `run_status` makes of the retained session. -/
def inspectedStatus : Except SessionError (Option Daemon.SessionInfo) → Except CliError Report
  | .error error => .error (stateError error)
  | .ok none => .ok .none
  | .ok (some session) => .ok (.retained session)

def status (daemons : Daemons) : StatusPhase → StatusEvent → Option (Daemons × StatusPhase)
  | .probing probe, .probe event =>
      (probe.step home daemons event).map fun next => (next.1, probedStatus next.2)
  | .inspecting, .inspect sqlite =>
      some (daemons, .returned (inspectedStatus (daemons.shared.contents.inspect home sqlite)))
  | _, _ => none

/-! ### Unmount -/

inductive Unmount where
  | probing (probe : Probe)
  | shutting (daemon : ℕ) (status : SessionStatus)
  | polling (status : SessionStatus)
  | elapsing (status : SessionStatus)
  | inspecting (status : SessionStatus) (exited : Bool)
  | returned (result : Except CliError SessionStatus)

inductive UnmountEvent where
  | probe (event : ProbeEvent)
  | reconnect
  | shutdown (delivery : Delivery)
  | poll (running : Bool)
  | deadline (passed : Bool)
  | inspect (sqlite : Sqlite)

def probedUnmount : Probed → Unmount
  | .going probe => .probing probe
  | .done (.ok (daemon, status)) => .shutting daemon status
  | .done (.error error) => .returned (.error (clientError error))

/-- Whether `kill(pid, 0)` may find no process: none of the daemons that run has the pid. -/
def Daemons.gone (daemons : Daemons) (pid : UInt32) : Bool :=
  2 ^ 31 ≤ pid.toNat ∨
    daemons.threads.all fun process => process.exit.isSome || process.arguments.pid ≠ pid

/-- What `run_unmount` makes of the retained session. -/
def unmounted (status : SessionStatus) (exited : Bool) :
    Except SessionError (Option Daemon.SessionInfo) → Except CliError SessionStatus
  | .error error => .error (stateError (.context "getting session info" error))
  | .ok session =>
      if exited ∧ session.any Daemon.SessionInfo.closed then .ok status
      else
        let problem :=
          if exited then s!"daemon pid {status.daemonPid} exited without closing its session"
          else s!"daemon pid {status.daemonPid} is still shutting down after 30 seconds"
        let logs := daemonLogsHint home
        .error (.commandFailed "daemon_shutdown"
          (match session with
          | some _ => s!"{problem}; {logs}"
          | none => s!"{problem}; retained session state is missing; {logs}"))

def unmount (daemons : Daemons) : Unmount → UnmountEvent → Option (Daemons × Unmount)
  | .probing probe, .probe event =>
      (probe.step home daemons event).map fun next => (next.1, probedUnmount next.2)
  | .shutting _ status, .reconnect =>
      daemons.listener.map fun i => (daemons, .shutting i status)
  | .shutting i status, .shutdown delivery => do
      let (reply, daemons) ←
        daemons.call home i (.shutdown Daemon.protocolVersion) delivery
      let result ← shutdownReply reply
      match result with
      | .ok () => some (daemons, .polling status)
      | .error error => some (daemons, .returned (.error (clientError error)))
  | .polling status, .poll running =>
      if running then some (daemons, .elapsing status)
      else if daemons.gone status.daemonPid then some (daemons, .inspecting status true)
      else none
  | .elapsing status, .deadline passed =>
      some (daemons, if passed then .inspecting status false else .polling status)
  | .inspecting status exited, .inspect sqlite =>
      some (daemons, .returned
        (unmounted home status exited (daemons.shared.contents.inspect home sqlite)))
  | _, _ => none

end Commands

end Home

end RemoteFs
