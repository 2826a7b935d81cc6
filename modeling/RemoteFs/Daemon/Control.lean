import RemoteFs.Cas.Error
import RemoteFs.Library.Transition
import RemoteFs.Session.Error

/-!
# The control service and the owner of daemon shutdown

The daemon keeps its resources in one shared slot. A `Shutdown` request, a
termination signal, and the server exiting on its own each detach them, and
`serve` releases them: it unmounts, closes the session and removes the control
socket, and stops at the first step that fails.

`Daemon` is the state the request handlers and `serve` share, together with the
position of `serve`. A handler takes the lock of the slot once and does not
await while it holds it, so a request is one action. `step` has one action for
each request, signal and exit, and for each thing `serve` does between two of
its await points; it is absent when the action is not enabled, so a receive on
an empty channel is an action that stays absent.
-/

namespace RemoteFs

namespace Daemon

open Cas (Code Status)
open Session (SessionError)

/-- The control protocol version this daemon implements. -/
def protocolVersion : UInt32 := 1

abbrev JoinError := String

abbrev TransportError := String

inductive IoErrorKind where
  | notFound
  | other
  deriving DecidableEq, Repr

inductive ControlError where
  | socket (path : PathBuf) (source : IoErrorKind × IoError)
  | transport (source : TransportError)
  | signal (source : IoError)
  | state (source : SessionError)
  | task (source : JoinError)
  | context (operation : String) (source : ControlError)
  deriving DecidableEq, Repr

instance : ResultContextError ControlError where
  withContext source operation := .context operation source

/-- Immutable facts established while opening a session. -/
structure SessionInfo where
  rootDigest : Digest
  mountpoint : PathBuf
  daemonPid : UInt32
  controlEndpoint : PathBuf
  closed : Bool

/-- The session, its mount and the control socket. The session is known here by
its startup facts, the mount by its mountpoint. -/
structure DaemonResources where
  session : SessionInfo
  mount : PathBuf
  socket : PathBuf

/-! ### Release -/

inductive ReleaseStep where
  | unmount
  | close
  | removeSocket
  deriving DecidableEq, Repr

/-- How the work of a release step ended: the two blocking tasks may fail to
join, and a joined close has a result of its own. -/
inductive ReleaseOutcome where
  | unmount (joined : Except JoinError Unit)
  | close (joined : Except JoinError (Except SessionError Unit))
  | removeSocket (removed : Except (IoErrorKind × IoError) Unit)

def ReleaseOutcome.step : ReleaseOutcome → ReleaseStep
  | .unmount _ => .unmount
  | .close _ => .close
  | .removeSocket _ => .removeSocket

/-- A socket that is already gone counts as removed. -/
def removeSocket (socket : PathBuf) (removed : Except (IoErrorKind × IoError) Unit) :
    Except ControlError Unit :=
  match removed with
  | .ok () => .ok ()
  | .error source =>
      if source.1 = .notFound then .ok () else .error (.socket socket source)

def DaemonResources.afterStep (resources : DaemonResources) :
    ReleaseOutcome → Except ControlError Unit
  | .unmount joined => withContext (joined.mapError .task) "unmount FUSE"
  | .close joined => do
      let closeResult ← withContext (joined.mapError .task) "join session close task"
      closeResult.mapError .state
  | .removeSocket removed =>
      withContext (removeSocket resources.socket removed) "remove control socket"

def ReleaseStep.next : ReleaseStep → Option ReleaseStep
  | .unmount => some .close
  | .close => some .removeSocket
  | .removeSocket => none

/-- The record of a release: which steps started, and how their work ended. -/
inductive ReleaseEvent where
  | started (step : ReleaseStep)
  | finished (outcome : ReleaseOutcome)

/-! ### State -/

abbrev ServerResult := Except TransportError Unit

inductive Serve where
  | selecting
  | detaching (finishedServer : Option ServerResult)
  | receiving (finishedServer : Option ServerResult)
  | releasing (step : ReleaseStep) (resources : DaemonResources)
      (finishedServer : Option ServerResult)
  | draining (releaseResult : Except ControlError Unit)
      (finishedServer : Option ServerResult)
  | returned (result : Except ControlError Unit)
  | panicked

namespace Serve

/-- Whether `serve` still holds its service and the receiver. -/
def alive : Serve → Bool
  | .returned _ => false
  | .panicked => false
  | _ => true

def owned : Serve → List DaemonResources
  | .releasing _ resources _ => [resources]
  | _ => []

end Serve

inductive SignalKind where
  | interrupt
  | terminate
  deriving DecidableEq, Repr

end Daemon

/-- The state the request handlers and `serve` share. `clones` counts the copies
of the service the server holds; `released` and `log` record what was released
and the steps it took. -/
structure Daemon where
  slot : Option Daemon.DaemonResources
  channel : List Daemon.DaemonResources
  serve : Daemon.Serve
  signals : Daemon.SignalKind → Bool
  server : Option Daemon.ServerResult
  clones : ℕ
  released : List Daemon.DaemonResources
  log : List Daemon.ReleaseEvent

namespace Daemon

open Cas (Code Status)

def channelCapacity : ℕ := 1

/-- The state in which `serve` enters its `select!`. -/
def start (resources : DaemonResources) : Daemon where
  slot := some resources
  channel := []
  serve := .selecting
  signals := fun _ => false
  server := none
  clones := 1
  released := []
  log := []

/-- The senders of the channel: one in each copy of the service. -/
def senders (d : Daemon) : ℕ :=
  d.clones + if d.serve.alive then 1 else 0

inductive TrySendError where
  | full (resources : DaemonResources)
  | closed (resources : DaemonResources)

/-- `try_send`: the channel afterwards, or the value back. -/
def trySend (d : Daemon) (resources : DaemonResources) :
    Except TrySendError (List DaemonResources) :=
  if d.serve.alive = false then .error (.closed resources)
  else if channelCapacity ≤ d.channel.length then .error (.full resources)
  else .ok (d.channel ++ [resources])

inductive Received where
  | pending
  | closed
  | value (resources : DaemonResources) (rest : List DaemonResources)

def recv (d : Daemon) : Received :=
  match d.channel with
  | resources :: rest => .value resources rest
  | [] => if d.senders = 0 then .closed else .pending

/-! ### Requests -/

inductive Request where
  | checkProtocol (protocolVersion : UInt32)
  | status (protocolVersion : UInt32)
  | snapshot (protocolVersion : UInt32)
  | shutdown (protocolVersion : UInt32)

def Request.protocolVersion : Request → UInt32
  | .checkProtocol version => version
  | .status version => version
  | .snapshot version => version
  | .shutdown version => version

structure StatusResponse where
  mounted : Bool
  rootDigest : String
  mountpoint : String
  dirtyFiles : ℕ
  protocolVersion : UInt32
  daemonPid : UInt32
  controlSocket : String
  dirty : Bool
  snapshotBlockers : List String

inductive Response where
  | protocol (protocolVersion : UInt32)
  | status (response : StatusResponse)
  | shutdown

def shuttingDown : Status where
  code := .unavailable
  message := "daemon is shutting down"

def validateProtocol (version : UInt32) : Except Status Unit :=
  if version = protocolVersion then .ok ()
  else .error
    { code := .failedPrecondition
      message := s!"incompatible protocol version {version}; daemon requires {protocolVersion}" }

/-- The startup facts of the active session, for a request. -/
def activeInfo (d : Daemon) (version : UInt32) : Except Status SessionInfo :=
  match d.slot with
  | none => .error shuttingDown
  | some resources => do
      validateProtocol version
      .ok resources.session

def checkProtocol (d : Daemon) (version : UInt32) : Except Status Response := do
  let _ ← d.activeInfo version
  .ok (.protocol protocolVersion)

def status (d : Daemon) (version : UInt32) : Except Status Response := do
  let info ← d.activeInfo version
  .ok (.status
    { mounted := true
      rootDigest := info.rootDigest.display
      mountpoint := PathBuf.display info.mountpoint
      dirtyFiles := 0
      protocolVersion := protocolVersion
      daemonPid := info.daemonPid
      controlSocket := PathBuf.display info.controlEndpoint
      dirty := false
      snapshotBlockers := ["snapshot is not implemented"] })

def snapshot (d : Daemon) (version : UInt32) : Except Status Response := do
  let _ ← d.activeInfo version
  .error { code := .unimplemented, message := "snapshot is not implemented yet" }

/-- Detach the resources and hand them to `serve`. A failed handoff would drop
them. -/
def shutdown (d : Daemon) (version : UInt32) : Except Status Response × Daemon :=
  match d.slot with
  | none => (.error shuttingDown, d)
  | some detached =>
      match validateProtocol version with
      | .error status => (.error status, d)
      | .ok () =>
          match d.trySend detached with
          | .error _ =>
              (.error (.internal "hand off daemon resources for release"),
                { d with slot := none })
          | .ok channel => (.ok .shutdown, { d with slot := none, channel := channel })

def handle (d : Daemon) : Request → Except Status Response × Daemon
  | .checkProtocol version => (d.checkProtocol version, d)
  | .status version => (d.status version, d)
  | .snapshot version => (d.snapshot version, d)
  | .shutdown version => d.shutdown version

/-! ### Steps -/

inductive Action where
  | request (request : Request)
  | signal (kind : SignalKind)
  | serverExits (result : ServerResult)
  | cloneService
  | dropClone
  | selectResources
  | selectSignal (kind : SignalKind)
  | selectServer
  | detach
  | receive
  | finishStep (outcome : ReleaseOutcome)
  | stopServer

/-- `serve` owns the resources and starts to release them. -/
def beginRelease (d : Daemon) (resources : DaemonResources)
    (finishedServer : Option ServerResult) : Daemon :=
  { d with
    serve := .releasing .unmount resources finishedServer
    log := d.log ++ [.started .unmount] }

/-- The work of a release step has ended: the next one starts, or `release` returns. -/
def afterRelease (d : Daemon) (resources : DaemonResources)
    (finishedServer : Option ServerResult) (outcome : ReleaseOutcome) : Daemon :=
  match resources.afterStep outcome, outcome.step.next with
  | .ok (), some next =>
      { d with
        serve := .releasing next resources finishedServer
        log := d.log ++ [.finished outcome, .started next] }
  | result, _ =>
      { d with
        serve := .draining result finishedServer
        released := d.released ++ [resources]
        log := d.log ++ [.finished outcome] }

/-- What `serve` returns: a transport failure comes before a release failure. -/
def serveResult (releaseResult : Except ControlError Unit) (serverResult : ServerResult) :
    Except ControlError Unit :=
  match serverResult with
  | .ok () => releaseResult
  | .error transportError => .error (.transport transportError)

/-- The service is detached directly, or received if a request was first. -/
def detachStep (d : Daemon) (finishedServer : Option ServerResult) : Daemon :=
  match d.slot with
  | some resources => { d with slot := none }.beginRelease resources finishedServer
  | none => { d with serve := .receiving finishedServer }

/-- The receive inside `detach_or_receive`, which expects a value. -/
def receiveStep (d : Daemon) (finishedServer : Option ServerResult) : Option Daemon :=
  match d.recv with
  | .value resources rest =>
      some ({ d with channel := rest }.beginRelease resources finishedServer)
  | .closed => some { d with serve := .panicked }
  | .pending => none

def step (d : Daemon) : Action → Option Daemon
  | .request request => some (d.handle request).2
  | .signal kind => some { d with signals := Function.update d.signals kind true }
  | .serverExits result =>
      if d.server.isNone then some { d with server := some result } else none
  | .cloneService => if 0 < d.senders then some { d with clones := d.clones + 1 } else none
  | .dropClone => if 0 < d.clones then some { d with clones := d.clones - 1 } else none
  | .selectResources =>
      match d.serve, d.recv with
      | .selecting, .value resources rest =>
          some ({ d with channel := rest }.beginRelease resources none)
      | _, _ => none
  | .selectSignal kind =>
      match d.serve with
      | .selecting =>
          if d.signals kind then
            some { d with
              serve := .detaching none
              signals := Function.update d.signals kind false }
          else none
      | _ => none
  | .selectServer =>
      match d.serve, d.server with
      | .selecting, some result => some { d with serve := .detaching (some result) }
      | _, _ => none
  | .detach =>
      match d.serve with
      | .detaching finishedServer => some (d.detachStep finishedServer)
      | _ => none
  | .receive =>
      match d.serve with
      | .receiving finishedServer => d.receiveStep finishedServer
      | _ => none
  | .finishStep outcome =>
      match d.serve with
      | .releasing step resources finishedServer =>
          if outcome.step = step then
            some (d.afterRelease resources finishedServer outcome)
          else none
      | _ => none
  | .stopServer =>
      match d.serve with
      | .draining releaseResult finishedServer =>
          match finishedServer <|> d.server with
          | some result => some { d with serve := .returned (serveResult releaseResult result) }
          | none => none
      | _ => none

end Daemon

end RemoteFs
