import RemoteFs.Fuse.Readdir
import RemoteFs.Session.System

/-!
# Requests of the kernel

The requests that read attributes, look up a name, list a directory, open a file and read
from it, as the adapter serves them. A request is reduced to the error number it is answered
with, none for success.
-/

namespace RemoteFs

open RemoteFs.Session (InodeId Inode SessionError Surroundings lookupChild readRange)
open RemoteFs.Tree (ValidName)

namespace FilesystemService

section Calls

variable [Uuid] (env : Surroundings) (session : Session) (inode : InodeId)

def lookupDirChild [Sha256] [Prost] (childName : String) :
    Except FilesystemError Inode × Session :=
  match lookupChild env session inode childName with
  | (result, session) =>
      (withContext (result.mapError .fromSession)
        s!"look up `{childName}` in directory inode {inode.display}", session)

/-- At most `size` bytes of a file from an offset on. -/
def read (offset size : ℕ) : Except FilesystemError Bytes × Session :=
  match readRange env session inode offset size with
  | (result, session) =>
      (withContext (result.mapError .fromSession)
        s!"read {size} bytes at offset {offset} from inode {inode.display}", session)

end Calls

end FilesystemService

namespace Fuse

/-! ### Flags of an open -/

def oAccmode : Int32 := 3

def oRdonly : Int32 := 0

def oWronly : Int32 := 1

def oRdwr : Int32 := 2

def oTrunc : Int32 := 0o1000

def oAppend : Int32 := 0o2000

section Adapter

variable [Uuid] (env : Surroundings) (session : Session)

def lookupNode [Sha256] [Prost] (parent : UInt64) (name : OsStr) :
    Except Errno Inode × Session :=
  match name.toStr with
  | none => (.error .enoent, session)
  | some name =>
      match InodeId.new parent with
      | .error _ => (.error .einval, session)
      | .ok parent =>
          match FilesystemService.lookupDirChild env session parent name with
          | (result, session) => (result.mapError errnoForError, session)

/-- Only read-only opens of regular files are admitted. -/
def openFile (inode : UInt64) (flags : Int32) : Except Errno Unit :=
  if flags &&& oAccmode ≠ oRdonly ∨ flags &&& (oAppend ||| oTrunc) ≠ 0 then .error .erofs
  else do
    let node ← node env session inode
    match node.kind with
    | .file => .ok ()
    | .directory => .error .eisdir
    | .symlink => .error .einval

def readBytes (inode : UInt64) (offset : Int64) (size : UInt32) :
    Except Errno Bytes × Session :=
  if offset < 0 then (.error .einval, session)
  else
    match InodeId.new inode with
    | .error _ => (.error .einval, session)
    | .ok inode =>
        match FilesystemService.read env session inode offset.toNatClampNeg size.toNat with
        | (result, session) => (result.mapError errnoForError, session)

end Adapter

/-- A request of the kernel. A name is one component of a path. -/
inductive Request where
  | node (inode : UInt64)
  | lookupNode (parent : UInt64) (name : String) (valid : ValidName name)
  | directoryEntries (inode : UInt64) (offset : Int64)
  | openFile (inode : UInt64) (flags : Int32)
  | readBytes (inode : UInt64) (offset : Int64) (size : UInt32)

def answerErrno {α : Type} : Except Errno α → Option Errno
  | .ok _ => none
  | .error errno => some errno

/-- The error number a request is answered with. The attributes of a directory that is
listed are read in surroundings of their own. -/
def Request.errno [Uuid] [Sha256] [Prost] (attr env : Surroundings) (session : Session) :
    Request → Option Errno
  | .node inode => answerErrno (Fuse.node env session inode)
  | .lookupNode parent name _ => answerErrno (Fuse.lookupNode env session parent (.utf8 name)).1
  | .directoryEntries inode offset =>
      answerErrno (Fuse.directoryEntries attr env session inode offset).1
  | .openFile inode flags => answerErrno (Fuse.openFile env session inode flags)
  | .readBytes inode offset size => answerErrno (Fuse.readBytes env session inode offset size).1

/-! ### Poisoned locks -/

/-- The error number for a failure of the session, in the context the service adds. -/
def serviceErrno (operation : String) (e : SessionError) : Errno :=
  errnoForError (.context operation (.fromSession e))

section Poisoned

open RemoteFs.Session.System (State poisonedLock)

variable [Uuid]

/-- The error number a request is answered with whose inode has a poisoned lock. -/
def Request.poisonedErrno (attr env : Surroundings) (session : Session) :
    Request → Option Errno
  | .node inode => answerErrno (Fuse.node env session inode)
  | .lookupNode parent name _ =>
      match InodeId.new parent with
      | .error _ => some .einval
      | .ok parent => some (serviceErrno
          s!"look up `{name}` in directory inode {parent.display}"
          (poisonedLock parent (.lookupChild parent name)))
  | .directoryEntries inode offset =>
      if offset < 0 then some .einval
      else
        match Fuse.node attr session inode with
        | .error errno => some errno
        | .ok found =>
            if found.kind ≠ .directory then some .enotdir
            else some (serviceErrno s!"read directory inode {found.inode.display}"
              (poisonedLock found.inode (.listDirectory found.inode)))
  | .openFile inode flags => answerErrno (Fuse.openFile env session inode flags)
  | .readBytes inode offset size =>
      if offset < 0 then some .einval
      else
        match InodeId.new inode with
        | .error _ => some .einval
        | .ok inode => some (serviceErrno
            s!"read {size} bytes at offset {offset} from inode {inode.display}"
            (poisonedLock inode (.readRange inode offset.toNatClampNeg size.toNat)))

def Request.inode : Request → UInt64
  | .node inode => inode
  | .lookupNode parent _ _ => parent
  | .directoryEntries inode _ => inode
  | .openFile inode _ => inode
  | .readBytes inode _ _ => inode

/-- Whether the lock of the inode of a request is poisoned. -/
def Request.findsPoisoned (state : State) (request : Request) : Bool :=
  match InodeId.new request.inode with
  | .error _ => false
  | .ok inode => state.poisoned inode

/-- The error number a request is answered with in a state of the session. -/
def Request.errnoIn [Sha256] [Prost] (attr env : Surroundings) (state : State)
    (request : Request) : Option Errno :=
  if request.findsPoisoned state then request.poisonedErrno attr env state.session
  else request.errno attr env state.session

end Poisoned

end Fuse

end RemoteFs
