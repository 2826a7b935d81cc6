import RemoteFs.Session.Mount
import RemoteFs.Session.SingleFlight

/-!
# Sessions over their cache

Calls of a session make calls of its cache, and the steps of both interleave. A call of the
facade takes the lock of its inode, reads the store, begins a call of the cache and waits until
that has returned. A load then creates the children and counts the read afterwards, in two
steps; a read counts and returns. A call of the cache that panics takes the call that waits for
it along, which leaves the lock of its inode poisoned.

`digestToLoad`, `decodeChildren` and `backing` are the parts of a load and of a read on the two
sides of the cache; `childrenToLoad_eq` and `readRange_eq` put them together again.
-/

namespace RemoteFs

namespace Session

open RemoteFs.Tree (decodeDirectory)

/-! ### What surrounds a read of the cache -/

section Parts

variable [Uuid] (env : Surroundings) (session : Session) (inode : InodeId)

/-- The blob a load reads: none when the directory is loaded. -/
def digestToLoad : Except SessionError (Option Digest) := do
  let directory ← getVisibleInode env session inode
  if directory.kind ≠ .directory then
    .error (notDirectory
      s!"load directory inode {inode.display}: actual kind is {directory.kind.display}")
  else if directory.directoryLoaded = some true then .ok none
  else
    match directory.directoryRemoteDigest with
    | none => .error (internalError (s!"directory inode {inode.display} is not loaded but " ++
        "has no backing remote digest to fetch from the blob store"))
    | some digest => .ok (some digest)

omit [Uuid] in
def decodeChildren [Sha256] [Prost] (digest : Digest) (bytes : Bytes) :
    Except SessionError (List NewRemoteInode) := do
  let decoded ← (decodeDirectory digest bytes).mapError fun source =>
    internalError s!"decode directory blob {digest.display}: {source.display}"
  decodedDirectoryChildren decoded

inductive Backing where
  | overlay (path : PathBuf)
  | remote (digest : Digest)

def backing : Except SessionError Backing := do
  let stored ← getVisibleInode env session inode
  if stored.kind = .directory then
    .error (isDirectory s!"read inode {inode.display}: actual kind is directory")
  else if stored.kind ≠ .file then
    .error (internalError s!"read inode {inode.display}: actual kind is {stored.kind.display}")
  else
    match stored.fileOverlayPath, stored.fileRemoteDigest with
    | some path, _ => .ok (.overlay path)
    | none, none =>
        .error (internalError s!"read inode {inode.display}: file has no backing digest")
    | none, some digest => .ok (.remote digest)

theorem childrenToLoad_eq [Sha256] [Prost] :
    childrenToLoad env session inode = (do
      match ← digestToLoad env session inode with
      | none => .ok none
      | some digest =>
          let (bytes, downloaded) ← env.readBlob digest
          let children ← decodeChildren digest bytes
          .ok (some (children, downloaded))) := by
  rw [childrenToLoad, digestToLoad]
  cases getVisibleInode env session inode with
  | error e => rfl
  | ok directory =>
      simp only [Result.ok_bind]
      split
      · rfl
      · split
        · rfl
        · cases directory.directoryRemoteDigest with
          | none => rfl
          | some digest =>
              simp only [Result.ok_bind, fetchChildren, decodeChildren]
              cases env.readBlob digest with
              | error e => rfl
              | ok read =>
                  simp only [Result.ok_bind]
                  cases (decodeDirectory digest read.1).mapError _ with
                  | error e => rfl
                  | ok decoded =>
                      simp only [Result.ok_bind]
                      cases decodedDirectoryChildren decoded <;> rfl

theorem readRange_eq (offset size : ℕ) :
    readRange env session inode offset size =
      match backing env session inode with
      | .error e => (.error e, session)
      | .ok (.overlay path) => (env.readOverlay path offset size, session)
      | .ok (.remote digest) =>
          match env.readRange digest offset size with
          | .error e => (.error e, session)
          | .ok (bytes, downloaded) => (.ok bytes, session.recordFileRead downloaded) := by
  rw [readRange, backing]
  cases getVisibleInode env session inode with
  | error e => rfl
  | ok stored =>
      simp only [Result.ok_bind, readStored]
      split
      · rfl
      · split
        · rfl
        · cases stored.fileOverlayPath with
          | some path => rfl
          | none => cases stored.fileRemoteDigest <;> rfl

end Parts

namespace System

/-! ### Calls -/

inductive Request where
  | getInode (inode : InodeId)
  | lookupChild (parent : InodeId) (name : String)
  | listDirectory (inode : InodeId)
  | readRange (inode : InodeId) (offset size : ℕ)
  | close

inductive Answer where
  | inode (entry : Inode)
  | entries (entries : List Inode)
  | bytes (bytes : Bytes)
  | closed

def Request.guarded : Request → Option InodeId
  | .getInode _ => none
  | .lookupChild parent _ => some parent
  | .listDirectory inode => some inode
  | .readRange inode _ _ => some inode
  | .close => none

def Request.directory : Request → Option InodeId
  | .getInode _ => none
  | .lookupChild parent _ => some parent
  | .listDirectory inode => some inode
  | .readRange _ _ _ => none
  | .close => none

/-- How far a call is. A phase that waits for the cache names the call it waits for. -/
inductive Phase where
  | called
  | locked
  | fetching (digest : Digest) (call : ℕ)
  | fetched (children : List NewRemoteInode) (downloaded : Bool)
  | created (downloaded : Bool)
  | loaded
  | reading (call : ℕ)
  | served (bytes : Bytes) (downloaded : Bool)
  | returned (result : Except SessionError Answer)
  | panicked

/-- Whether the guard of the lock of the inode is alive. -/
def Phase.guarding : Phase → Bool
  | .locked => true
  | .fetching _ _ => true
  | .fetched _ _ => true
  | .created _ => true
  | .reading _ => true
  | .served _ _ => true
  | _ => false

def Phase.awaited : Phase → Option ℕ
  | .fetching _ call => some call
  | .reading call => some call
  | _ => none

def Phase.finished : Phase → Bool
  | .returned _ => true
  | .panicked => true
  | _ => false

structure Task where
  request : Request
  phase : Phase

def Task.holds (inode : InodeId) (task : Task) : Bool :=
  task.request.guarded = some inode ∧ task.phase.guarding

/-- The session, its cache, the inodes whose lock is poisoned, and the calls made so far. -/
structure State where
  session : Session
  cache : Cache.State
  poisoned : InodeId → Bool
  tasks : List Task

def State.Quiescent (s : State) : Prop :=
  ∀ task ∈ s.tasks, task.phase.finished = true

/-- The failure of a call that finds the lock of its inode poisoned. -/
def poisonedLock (inode : InodeId) : Request → SessionError
  | .readRange _ _ _ => internalError s!"read inode {inode.display}: inode lock is poisoned"
  | _ => internalError s!"load directory inode {inode.display}: inode lock is poisoned"

/-- A new call, a lock that is granted, a step of a call with what surrounds it, or a step of a
call of the cache. -/
inductive Move where
  | call (request : Request)
  | lock (i : ℕ)
  | proceed (i : ℕ) (env : Surroundings) (clock : ℤ)
  | cache (call : ℕ) (action : Cache.Action)

structure Outcome where
  session : Session
  cache : Cache.State
  poisons : Bool
  phase : Phase

def Outcome.unpoisoned (session : Session) (cache : Cache.State) (phase : Phase) : Outcome where
  session := session
  cache := cache
  poisons := false
  phase := phase

def begun (cache : Cache.State) (digest : Digest) (request : Cache.Request) : Cache.State :=
  { cache with threads := cache.threads ++ [Cache.Call.begin (digest, request)] }

def cachePhase (cache : Cache.State) (call : ℕ) : Option Cache.Phase :=
  cache.threads[call]?.map Cache.Call.phase

section Model

variable [Uuid] [Sha256] [Prost]

def load (env : Surroundings) (session : Session) (cache : Cache.State) (inode : InodeId) :
    Phase → Option Outcome
  | .locked =>
      match digestToLoad env session inode with
      | .error e => some (.unpoisoned session cache (.returned (.error e)))
      | .ok none => some (.unpoisoned session cache .loaded)
      | .ok (some digest) => some (.unpoisoned session (begun cache digest .readBlob)
          (.fetching digest cache.threads.length))
  | .fetching digest call =>
      match cachePhase cache call with
      | some (.returned (.error e)) => some (.unpoisoned session cache (.returned (.error e)))
      | some (.returned (.ok (bytes, downloaded))) =>
          match decodeChildren digest bytes with
          | .error e => some (.unpoisoned session cache (.returned (.error e)))
          | .ok children => some (.unpoisoned session cache (.fetched children downloaded))
      | some (.panicked _) =>
          some { session := session, cache := cache, poisons := true, phase := .panicked }
      | _ => none
  | .fetched children downloaded =>
      match session.store.getOrCreateRemoteDirChildren env.loadSqlite inode children with
      | (.error e, store) =>
          some (.unpoisoned { session with store := store } cache (.returned (.error e)))
      | (.ok _, store) =>
          some (.unpoisoned { session with store := store } cache (.created downloaded))
  | .created downloaded =>
      some (.unpoisoned (session.recordDirectoryRead downloaded) cache .loaded)
  | _ => none

def read (env : Surroundings) (session : Session) (cache : Cache.State) (inode : InodeId)
    (offset size : ℕ) : Phase → Option Outcome
  | .locked =>
      match backing env session inode with
      | .error e => some (.unpoisoned session cache (.returned (.error e)))
      | .ok (.overlay path) => some (.unpoisoned session cache
          (.returned ((env.readOverlay path offset size).map .bytes)))
      | .ok (.remote digest) => some (.unpoisoned session
          (begun cache digest (.readRange offset size)) (.reading cache.threads.length))
  | .reading call =>
      match cachePhase cache call with
      | some (.returned (.error e)) => some (.unpoisoned session cache (.returned (.error e)))
      | some (.returned (.ok (bytes, downloaded))) =>
          some (.unpoisoned session cache (.served bytes downloaded))
      | some (.panicked _) =>
          some { session := session, cache := cache, poisons := true, phase := .panicked }
      | _ => none
  | .served bytes downloaded =>
      some (.unpoisoned (session.recordFileRead downloaded) cache (.returned (.ok (.bytes bytes))))
  | _ => none

def advance (env : Surroundings) (clock : ℤ) (session : Session) (cache : Cache.State) :
    Request → Phase → Option Outcome
  | .getInode inode, .called =>
      some (.unpoisoned session cache (.returned ((getInode env session inode).map .inode)))
  | .lookupChild parent name, .loaded =>
      some (.unpoisoned session cache
        (.returned ((readChild env session parent name).map .inode)))
  | .lookupChild parent _, phase => load env session cache parent phase
  | .listDirectory inode, .loaded =>
      some (.unpoisoned session cache (.returned ((readChildren env session inode).map .entries)))
  | .listDirectory inode, phase => load env session cache inode phase
  | .readRange inode offset size, phase => read env session cache inode offset size phase
  | .close, .called =>
      let (result, store) := session.store.close env.loadSqlite clock
      some (.unpoisoned { session with store := store } cache
        (.returned (result.map fun _ => .closed)))
  | _, _ => none

def poison (poisoned : InodeId → Bool) (request : Request) (poisons : Bool) : InodeId → Bool :=
  fun inode => poisoned inode || (poisons && request.guarded = some inode)

def step (root : PathBuf) (s : State) : Move → Option State
  | .call request => some { s with tasks := s.tasks ++ [⟨request, .called⟩] }
  | .lock i =>
      match s.tasks[i]? with
      | some ⟨request, .called⟩ =>
          match request.guarded with
          | none => none
          | some inode =>
              if s.tasks.any (Task.holds inode) then none
              else
                let phase :=
                  if s.poisoned inode then .returned (.error (poisonedLock inode request))
                  else .locked
                some { s with tasks := s.tasks.set i ⟨request, phase⟩ }
      | _ => none
  | .proceed i env clock =>
      match s.tasks[i]? with
      | none => none
      | some task =>
          match advance env clock s.session s.cache task.request task.phase with
          | none => none
          | some outcome =>
              some
                { session := outcome.session
                  cache := outcome.cache
                  poisoned := poison s.poisoned task.request outcome.poisons
                  tasks := s.tasks.set i { task with phase := outcome.phase } }
  | .cache call action =>
      match Cache.step root s.cache (.act call action) with
      | none => none
      | some cache => some { s with cache := cache }

/-- An open session with the blobs of earlier sessions and no calls yet. -/
def start (rootDigest : Digest) (store : SessionStore) (files : PathBuf → Option Bytes) :
    State where
  session := opened rootDigest store
  cache := Cache.start files
  poisoned := fun _ => false
  tasks := []

/-- A state reached from an open session by any interleaving of calls. -/
def Reached (rootDigest : Digest) (root : PathBuf) (s : State) : Prop :=
  ∃ sqlite databasePath sessionId daemonPid mountpoint clock store files moves,
    SessionStore.create sqlite databasePath sessionId daemonPid rootDigest mountpoint clock =
        .ok store ∧
      Transition.run (step root) (start rootDigest store files) moves = some s

end Model

end System

end Session

end RemoteFs
