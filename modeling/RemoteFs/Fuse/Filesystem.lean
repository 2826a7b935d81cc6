import RemoteFs.Fuse.Attributes
import RemoteFs.Session.Facade

/-!
# The filesystem service

The service hands a request to the session and wraps a failure in the operation it was
part of. The adapter reduces a failure to the error number the kernel is given, which
depends only on the failure below all contexts.
-/

namespace RemoteFs

open RemoteFs.Session (InodeId Inode SessionError Surroundings getInode listDirectory)

inductive FilesystemError where
  | internalError (reason : String)
  | failedPreconditionError (reason : String)
  | notFound (reason : String)
  | notDirectory (reason : String)
  | isDirectory (reason : String)
  | invalidArgument (reason : String)
  | invalidInode (inode : InodeId) (reason : String)
  | context (operation : String) (source : FilesystemError)
  deriving DecidableEq

namespace FilesystemError

instance resultContextError : ResultContextError FilesystemError where
  withContext source operation := .context operation source

def fromSession : SessionError → FilesystemError
  | .internalError reason => .internalError reason
  | .failedPreconditionError reason => .failedPreconditionError reason
  | .notFound reason => .notFound reason
  | .notDirectory reason => .notDirectory reason
  | .isDirectory reason => .isDirectory reason
  | .database operation dbpath source =>
      .internalError s!"SQLite {operation} failed on db {dbpath.display}: {source}"
  | .context operation source => .context operation (fromSession source)

end FilesystemError

namespace FilesystemService

section Calls

variable [Uuid] (env : Surroundings) (session : Session) (inode : InodeId)

/-- Visible metadata for an inode, without loading a directory. -/
def getattr : Except FilesystemError Inode :=
  withContext ((getInode env session inode).mapError .fromSession)
    s!"read attributes for inode {inode.display}"

/-- The visible direct children of a directory in basename order. -/
def readdir [Sha256] [Prost] : Except FilesystemError (List Inode) × Session :=
  match listDirectory env session inode with
  | (result, session) =>
      (withContext (result.mapError .fromSession) s!"read directory inode {inode.display}",
        session)

@[simp] theorem getattr_eq_ok_iff (node : Inode) :
    getattr env session inode = .ok node ↔ getInode env session inode = .ok node := by
  rw [getattr, withContext_eq_ok_iff, Result.mapError_eq_ok_iff]

theorem readdir_eq_ok_iff [Sha256] [Prost] (children : List Inode) (session' : Session) :
    readdir env session inode = (.ok children, session') ↔
      listDirectory env session inode = (.ok children, session') := by
  rw [readdir]
  rcases listDirectory env session inode with ⟨result, t⟩
  rw [Prod.mk.injEq, Prod.mk.injEq, withContext_eq_ok_iff, Result.mapError_eq_ok_iff]

end Calls

end FilesystemService

namespace Fuse

inductive Errno where
  | einval
  | eio
  | eisdir
  | enoent
  | enotdir
  | erofs
  deriving DecidableEq, Repr

def errnoForError : FilesystemError → Errno
  | .context _ source => errnoForError source
  | .notFound _ => .enoent
  | .notDirectory _ => .enotdir
  | .isDirectory _ => .eisdir
  | .invalidArgument _ => .einval
  | .internalError _ => .eio
  | .failedPreconditionError _ => .eio
  | .invalidInode _ _ => .eio

section Adapter

variable [Uuid] (env : Surroundings) (session : Session)

/-- The node of an inode number supplied by the kernel. -/
def node (inode : UInt64) : Except Errno Inode := do
  let inode ← (InodeId.new inode).mapError fun _ => .einval
  (FilesystemService.getattr env session inode).mapError errnoForError

theorem node_eq_ok_iff (inode : UInt64) (found : Inode) :
    node env session inode = .ok found ↔
      ∃ id, InodeId.new inode = .ok id ∧ getInode env session id = .ok found := by
  rw [node, Result.bind_eq_ok_iff]
  simp only [Result.mapError_eq_ok_iff, FilesystemService.getattr_eq_ok_iff]

end Adapter

end Fuse

end RemoteFs
