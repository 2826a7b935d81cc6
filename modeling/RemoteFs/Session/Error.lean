import RemoteFs.Basic.ErrorContext
import RemoteFs.Basic.Text

/-!
# Session errors

Failures owned by the local session hierarchy, and the functions that build
them. `SessionError.root` is a failure without the operations it was wrapped in.
-/

namespace RemoteFs

namespace Session

abbrev SqliteError := String

inductive SessionError where
  | internalError (reason : String)
  | failedPreconditionError (reason : String)
  | notFound (reason : String)
  | notDirectory (reason : String)
  | isDirectory (reason : String)
  | database (operation : String) (dbpath : PathBuf) (source : SqliteError)
  | context (operation : String) (source : SessionError)
  deriving DecidableEq, Repr

instance : ResultContextError SessionError where
  withContext source operation := .context operation source

namespace SessionError

def root : SessionError → SessionError
  | .context _ source => source.root
  | .internalError reason => .internalError reason
  | .failedPreconditionError reason => .failedPreconditionError reason
  | .notFound reason => .notFound reason
  | .notDirectory reason => .notDirectory reason
  | .isDirectory reason => .isDirectory reason
  | .database operation dbpath source => .database operation dbpath source

def FromSqlite (e : SessionError) : Prop :=
  ∃ operation dbpath source, e.root = .database operation dbpath source

theorem FromSqlite.context {e : SessionError} (h : e.FromSqlite) (operation : String) :
    (SessionError.context operation e).FromSqlite := h

end SessionError

def internalError (reason : String) : SessionError :=
  .internalError reason

def failedPrecondition (reason : String) : SessionError :=
  .failedPreconditionError reason

def notFound (reason : String) : SessionError :=
  .notFound reason

def notDirectory (reason : String) : SessionError :=
  .notDirectory reason

def isDirectory (reason : String) : SessionError :=
  .isDirectory reason

end Session

end RemoteFs
