import Mathlib.Logic.Function.Basic
import RemoteFs.Library.Pool
import RemoteFs.Session.PendingBlob

/-!
# The verified blob cache

Readers share a directory of admitted blobs and a map of download locks. A call of
`read_blob` or `read_range` is a thread whose atomic steps are the accesses to what
is shared: the look at the final path, joining a download lock, entering its gate,
admitting the blob, leaving the gate and the lock. Between two steps of one call
any steps of other calls may happen.

What the environment decides is part of the step: the writes the remote stream
makes and how it ends, the prefix of each write the temporary file accepts, and
the failures of the file system. A temporary file belongs to one pending blob and
its name starts with a dot, so the final paths are the only files calls share.
-/

namespace RemoteFs

namespace Session

def fsError (operation : String) (path : PathBuf) (source : IoError) : SessionError :=
  internalError s!"{operation} {path.display}: {source}"

namespace Cache

/-! ### Paths and files -/

/-- The directory of the entries that share two digits. -/
def shard (root : PathBuf) (digest : Digest) : PathBuf :=
  root.join (.utf8 (String.ofList (digest.hash.toList.take 2)))

def path (root : PathBuf) (digest : Digest) : PathBuf :=
  (shard root digest).join (.utf8 (digest.hash ++ "-" ++ toString digest.sizeBytes))

/-- What the file system answers while a file is read. A positioned read that has
`n` bytes to deliver delivers a count that depends on `n`. -/
structure FileReads where
  openError : Option IoError
  inspectError : Option IoError
  readAt : Except IoError (ℕ → ℕ)

/-- Reads deliver everything up to the end of the file. -/
def FileReads.Full (reads : FileReads) : Prop :=
  ∀ count, reads.readAt = .ok count → ∀ n, count n = n

def readCachedBlob (root : PathBuf) (files : PathBuf → Option Bytes) (digest : Digest)
    (reads : FileReads) : Except SessionError Bytes :=
  match files (path root digest) with
  | none => .error (internalError (s!"read admitted blob {digest.display} at " ++
      s!"{(path root digest).display}: entry is missing"))
  | some bytes =>
      match reads.openError with
      | some source => .error (fsError "read admitted blob" (path root digest) source)
      | none => .ok bytes

/-- Read a bounded range of bytes at an offset from a file. -/
def readFileRange (files : PathBuf → Option Bytes) (path : PathBuf) (offset size : ℕ)
    (reads : FileReads) : Except SessionError Bytes :=
  match reads.openError, files path with
  | some source, _ => .error (fsError "open file range" path source)
  | none, none => .error (fsError "open file range" path "No such file or directory")
  | none, some bytes =>
      match reads.inspectError with
      | some source => .error (fsError "inspect file range" path source)
      | none =>
          let available := bytes.length - offset
          let readSize := min available size
          match reads.readAt with
          | .error source => .error (fsError "read file range" path source)
          | .ok count => .ok (((bytes.drop offset).take readSize).take (count readSize))

/-! ### Download locks -/

/-- Digest-specific admission gate and the number of its joined readers. The gate
is a mutex: the call that holds it, and whether a holder panicked. -/
structure DownloadLock where
  gate : Option ℕ
  poisoned : Bool
  participants : ℕ
  deriving DecidableEq

/-- What the calls share: the files at final paths, the map of download locks with
the poison flag of its mutex, and the locks that were ever allocated. -/
structure Shared where
  files : PathBuf → Option Bytes
  downloadLocks : Digest → Option ℕ
  poisoned : Bool
  heap : List DownloadLock

namespace Shared

def opened (files : PathBuf → Option Bytes) : Shared where
  files := files
  downloadLocks := fun _ => none
  poisoned := false
  heap := []

def cacheContains (shared : Shared) (root : PathBuf) (digest : Digest) : Bool :=
  (shared.files (path root digest)).isSome

def acquireDownloadLock (shared : Shared) (digest : Digest) :
    Except SessionError (ℕ × Shared) :=
  if shared.poisoned then
    .error (internalError
      s!"coordinate blob downloads for {digest.display}: lock map is poisoned")
  else
    match shared.downloadLocks digest with
    | some lock =>
        .ok (lock, { shared with
          heap := shared.heap.modify lock fun l => { l with participants := l.participants + 1 } })
    | none =>
        .ok (shared.heap.length, { shared with
          downloadLocks := Function.update shared.downloadLocks digest (some shared.heap.length)
          heap := shared.heap ++ [{ gate := none, poisoned := false, participants := 1 }] })

/-- Leave a download cohort and remove it after its final participant; absent when
the participant count underflows and the assertion panics. -/
def releaseDownloadLock (shared : Shared) (digest : Digest) (lock : ℕ) :
    Option (Except SessionError Shared) :=
  if shared.poisoned then
    some (.error (internalError
      s!"release blob download coordination for {digest.display}: lock map is poisoned"))
  else
    match shared.heap[lock]? with
    | none => none
    | some l =>
        if l.participants = 0 then none
        else
          some (.ok { shared with
            downloadLocks :=
              if l.participants = 1 ∧ shared.downloadLocks digest = some lock then
                Function.update shared.downloadLocks digest none
              else shared.downloadLocks
            heap := shared.heap.set lock { l with participants := l.participants - 1 } })

/-- Drop the guard of a gate; a panicking holder poisons it. -/
def dropGuard (shared : Shared) (lock : ℕ) (panicking : Bool) : Shared :=
  { shared with
    heap := shared.heap.modify lock fun l =>
      { l with gate := none, poisoned := l.poisoned || panicking } }

end Shared

/-! ### Calls -/

inductive Request where
  | readBlob
  | readRange (offset size : ℕ)
  deriving DecidableEq, Repr

/-- Where a call is. The phases from `rechecking` to `unlocking` and `refused` hold
the gate of the lock; a call leaves the lock after `releasing` or `refused`. -/
inductive Phase where
  | checking
  | acquiring
  | waiting (lock : ℕ)
  | rechecking (lock : ℕ)
  | starting (lock : ℕ)
  | streaming (lock : ℕ) (pending : PendingBlob)
  | admitting (lock : ℕ) (pending : PendingBlob)
  | unlocking (lock : ℕ) (result : Except SessionError Bool)
  | releasing (lock : ℕ) (result : Except SessionError Bool)
  | refused (lock : ℕ)
  | departing (lock : ℕ) (error : SessionError)
  | panicked (lock : ℕ)
  | reading (downloaded : Bool)
  | returned (result : Except SessionError (Bytes × Bool))

def Phase.joined : Phase → Option ℕ
  | .waiting lock => some lock
  | .rechecking lock => some lock
  | .starting lock => some lock
  | .streaming lock _ => some lock
  | .admitting lock _ => some lock
  | .unlocking lock _ => some lock
  | .releasing lock _ => some lock
  | .refused lock => some lock
  | .panicked lock => some lock
  | _ => none

def Phase.holding : Phase → Option ℕ
  | .rechecking lock => some lock
  | .starting lock => some lock
  | .streaming lock _ => some lock
  | .admitting lock _ => some lock
  | .unlocking lock _ => some lock
  | .refused lock => some lock
  | .departing lock _ => some lock
  | _ => none

def Phase.pending : Phase → Option PendingBlob
  | .streaming _ pending => some pending
  | .admitting _ pending => some pending
  | _ => none

/-- A call, with what `ensure_cached` returned to it and whether it created the
entry. -/
structure Call where
  digest : Digest
  request : Request
  phase : Phase
  ensured : Option (Except SessionError Bool)
  admitted : Bool

namespace Call

def begin (arguments : Digest × Request) : Call where
  digest := arguments.1
  request := arguments.2
  phase := .checking
  ensured := none
  admitted := false

def ensure (call : Call) (result : Except SessionError Bool) : Call :=
  { call with
    ensured := some result
    phase :=
      match result with
      | .ok downloaded => .reading downloaded
      | .error e => .returned (.error e) }

def goto (call : Call) (phase : Phase) : Call :=
  { call with phase := phase }

end Call

/-! ### Steps -/

inductive StartFailure where
  | shard (source : IoError)
  | create (source : IoError)
  | secure (temporary : PathBuf) (source : IoError)

inductive AdmitFailure where
  | flush (temporary : PathBuf) (source : IoError)
  | sync (temporary : PathBuf) (source : IoError)
  | persist (source : IoError)

/-- The steps of a call, each with what the environment decides. -/
inductive Action where
  | check
  | acquire
  | enterGate
  | recheck
  | startPendingBlob (failure : Option StartFailure)
  | write (bytes : Bytes) (file : Except IoError ℕ)
  | finishStream (failure : Option String)
  | panicStream
  | admitPendingBlob (failure : Option AdmitFailure)
  | unlock
  | release
  | depart
  | read (reads : FileReads)

def startFailure (root : PathBuf) (digest : Digest) : StartFailure → SessionError
  | .shard source =>
      .context (s!"create cache shard {(shard root digest).display} for blob " ++ digest.display)
        (fsError "create directory" (shard root digest) source)
  | .create source => fsError "create pending blob" (shard root digest) source
  | .secure temporary source => fsError "secure pending blob" temporary source

def admitFailure (destination : PathBuf) : AdmitFailure → SessionError
  | .flush temporary source => fsError "flush pending blob" temporary source
  | .sync temporary source => fsError "sync pending blob" temporary source
  | .persist source => fsError "admit verified blob" destination source

/-- Admit a verified blob: create the entry unless there is one. -/
def persistNoclobber (shared : Shared) (pending : PendingBlob) : Shared × Bool :=
  match shared.files pending.destination with
  | some _ => (shared, false)
  | none =>
      ({ shared with
        files := Function.update shared.files pending.destination (some pending.temporary) },
        true)

def admitPendingBlob [Sha256] (shared : Shared) (call : Call) (lock : ℕ)
    (pending : PendingBlob) (failure : Option AdmitFailure) : Shared × Call :=
  match pending.verify, failure with
  | none, _ => (shared.dropGuard lock true, call.goto (.panicked lock))
  | some (.error e), _ => (shared, call.goto (.unlocking lock (.error e)))
  | some (.ok ()), some failure =>
      (shared, call.goto (.unlocking lock (.error (admitFailure pending.destination failure))))
  | some (.ok ()), none =>
      ((persistNoclobber shared pending).1,
        { call.goto (.unlocking lock (.ok true)) with
          admitted := (persistNoclobber shared pending).2 })

def enterGate (index : ℕ) (shared : Shared) (call : Call) (lock : ℕ) :
    Option (Shared × Call) :=
  shared.heap[lock]?.bind fun l =>
    if l.gate = none then
      some ({ shared with heap := shared.heap.set lock { l with gate := some index } },
        call.goto (if l.poisoned then .refused lock else .rechecking lock))
    else none

/-- Leave the lock and return the result of the fill. -/
def releaseResult (shared : Shared) (call : Call) (lock : ℕ)
    (result : Except SessionError Bool) : Shared × Call :=
  match shared.releaseDownloadLock call.digest lock with
  | none => ({ shared with poisoned := true }, call.goto (.panicked lock))
  | some (.error e) => (shared, call.ensure (.error e))
  | some (.ok shared) => (shared, call.ensure result)

/-- Leave a lock whose gate is poisoned. The guard inside the error lives on until
the call returns. -/
def releaseRefused (shared : Shared) (call : Call) (lock : ℕ) : Shared × Call :=
  match shared.releaseDownloadLock call.digest lock with
  | none => ({ shared.dropGuard lock true with poisoned := true }, call.goto (.panicked lock))
  | some (.error e) => (shared, call.goto (.departing lock e))
  | some (.ok shared) =>
      (shared, call.goto (.departing lock (internalError
        s!"wait for blob download {call.digest.display}: download gate is poisoned")))

/-- Read what the request asks for from the admitted file. -/
def readAdmitted (root : PathBuf) (shared : Shared) (call : Call) (reads : FileReads) :
    Except SessionError Bytes :=
  match call.request with
  | .readBlob => readCachedBlob root shared.files call.digest reads
  | .readRange offset size =>
      readFileRange shared.files (path root call.digest) offset size reads

/-- Serve the request, with whether this call downloaded the blob. -/
def serve (root : PathBuf) (shared : Shared) (call : Call) (downloaded : Bool)
    (reads : FileReads) : Except SessionError (Bytes × Bool) := do
  let bytes ← readAdmitted root shared call reads
  .ok (bytes, downloaded)

/-- One step of the call with an index; absent when the call is elsewhere, the gate
is held, or the file would accept more than it was given. -/
def advance [Sha256] (root : PathBuf) (index : ℕ) (action : Action) (shared : Shared)
    (call : Call) : Option (Shared × Call) :=
  match action, call.phase with
  | .check, .checking =>
      some (shared, if shared.cacheContains root call.digest then call.ensure (.ok false)
        else call.goto .acquiring)
  | .acquire, .acquiring =>
      match shared.acquireDownloadLock call.digest with
      | .error e => some (shared, call.ensure (.error e))
      | .ok (lock, shared) => some (shared, call.goto (.waiting lock))
  | .enterGate, .waiting lock => enterGate index shared call lock
  | .recheck, .rechecking lock =>
      some (shared, if shared.cacheContains root call.digest
        then call.goto (.unlocking lock (.ok false)) else call.goto (.starting lock))
  | .startPendingBlob failure, .starting lock =>
      match failure with
      | some failure => some (shared,
          call.goto (.unlocking lock (.error (startFailure root call.digest failure))))
      | none => some (shared, call.goto (.streaming lock
          (.new call.digest (path root call.digest))))
  | .write bytes file, .streaming lock pending =>
      if file.toOption.all (· ≤ bytes.length) then
        some (shared, call.goto (.streaming lock (pending.write bytes file).2))
      else none
  | .finishStream failure, .streaming lock pending =>
      match failure with
      | some source => some (shared, call.goto (.unlocking lock (.error (internalError
          s!"stream remote blob {call.digest.display}: {source}"))))
      | none => some (shared, call.goto (.admitting lock pending))
  | .panicStream, .streaming lock _ =>
      some (shared.dropGuard lock true, call.goto (.panicked lock))
  | .admitPendingBlob failure, .admitting lock pending =>
      some (admitPendingBlob shared call lock pending failure)
  | .unlock, .unlocking lock result =>
      some (shared.dropGuard lock false, call.goto (.releasing lock result))
  | .release, .releasing lock result => some (releaseResult shared call lock result)
  | .release, .refused lock => some (releaseRefused shared call lock)
  | .depart, .departing lock e => some (shared.dropGuard lock false, call.ensure (.error e))
  | .read reads, .reading downloaded =>
      some (shared, call.goto (.returned (serve root shared call downloaded reads)))
  | _, _ => none

/-- A move of the pool of calls: a call begins, or a call takes a step. -/
abbrev Move := Pool.Move Action (Digest × Request)

abbrev State := Pool Shared Call

def step [Sha256] (root : PathBuf) (state : State) (move : Move) : Option State :=
  state.step Call.begin (advance root) move

/-- A cache just opened over the files of earlier sessions. -/
def start (files : PathBuf → Option Bytes) : State where
  shared := .opened files
  threads := []

end Cache

end Session

end RemoteFs
