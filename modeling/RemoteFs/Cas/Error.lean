import RemoteFs.Basic.Disk
import RemoteFs.Basic.ErrorContext
import RemoteFs.Digest.Text

/-!
# RPC statuses and CAS errors

A failed RPC is a gRPC status, a code with a message. `isRetryableStatus` is the
test under which an attempt is repeated: four codes by themselves, and an
internal error whose message speaks of a reset.
-/

namespace RemoteFs

namespace Cas

inductive Code where
  | ok
  | cancelled
  | unknown
  | invalidArgument
  | deadlineExceeded
  | notFound
  | alreadyExists
  | permissionDenied
  | resourceExhausted
  | failedPrecondition
  | aborted
  | outOfRange
  | unimplemented
  | internal
  | unavailable
  | dataLoss
  | unauthenticated
  deriving DecidableEq, Repr

structure Status where
  code : Code
  message : String
  deriving DecidableEq, Repr

namespace Status

def internal (message : String) : Status where
  code := .internal
  message := message

def dataLoss (message : String) : Status where
  code := .dataLoss
  message := message

end Status

def containsText (text : List Char) : List Char → Bool
  | [] => text.isEmpty
  | c :: cs => text.isPrefixOf (c :: cs) || containsText text cs

def asciiLowercase (c : Char) : Char :=
  if 'A' ≤ c ∧ c ≤ 'Z' then Char.ofNat (c.toNat + 32) else c

def isRetryableStatus (status : Status) : Bool :=
  if status.code = .unavailable ∨ status.code = .deadlineExceeded ∨
      status.code = .resourceExhausted ∨ status.code = .aborted then
    true
  else
    status.code = .internal ∧
      containsText "reset".toList (status.message.toList.map asciiLowercase) = true

inductive CasOperation where
  | connect
  | findMissingBlobs
  | batchReadBlobs
  | batchUpdateBlobs
  | byteStreamRead
  | byteStreamWrite
  deriving DecidableEq, Repr

inductive CasError where
  | invalidInstanceName (name reason : String)
  | invalidRetryAttempts (attempts : ℕ) (reason : String)
  | unsupportedUrl (url : String)
  | transport (operation : CasOperation) (casUrl instanceName source : String)
  | rpc (operation : CasOperation) (attempts : ℕ) (casUrl instanceName : String)
      (status : Status)
  | blobStatus (operation : CasOperation) (digest : Digest) (message : String)
  | missingResponse (operation : CasOperation) (digest : Digest)
  | verification (digest : Digest) (source : DigestError)
  | invalidResponseDigest (operation : CasOperation) (source : DigestError)
  | io (operation : CasOperation) (path : PathBuf) (source : IoError)
  | streamWrite (digest : Digest) (source : IoError)
  | reApiConversion (operation source : String)
  | context (operation : String) (source : CasError)

instance : ResultContextError CasError where
  withContext source operation := .context operation source

end Cas

end RemoteFs
