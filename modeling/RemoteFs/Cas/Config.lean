import RemoteFs.Cas.Download

/-!
# The configuration of a CAS client

`CasConfig.new` fills in the default limits and checks the instance name, which becomes
part of resource names and so must not contain their keywords.
-/

namespace RemoteFs

namespace Cas

def defaultDownloadBlobStreamThresholdBytes : ℕ := 4 * 1024 * 1024

def defaultBatchUpdateBudgetBytes : ℕ := 3500 * 1024

def defaultAttempts : ℕ := 5

/-- The check of the segments of an instance name, in order. -/
def validateSegments (instanceName : String) : List String → Except CasError Unit
  | [] => .ok ()
  | segment :: segments =>
      if segment = "" then
        .error (.invalidInstanceName instanceName "must not contain empty path segments")
      else if segment ∈ ["blobs", "uploads", "compressed-blobs"] then
        .error (.invalidInstanceName instanceName
          s!"reserved REAPI resource segment `{segment}` is not allowed")
      else validateSegments instanceName segments

def validateInstanceName (instanceName : String) : Except CasError Unit :=
  if instanceName = "" then .error (.invalidInstanceName instanceName "must not be empty")
  else
    validateSegments instanceName ((instanceName.toList.splitOn '/').map String.ofList)

namespace CasConfig

def defaults (casUrl instanceName : String) : CasConfig where
  casUrl := casUrl
  instanceName := instanceName
  downloadBlobStreamThresholdBytes := defaultDownloadBlobStreamThresholdBytes
  batchUpdateBudgetBytes := defaultBatchUpdateBudgetBytes
  maxAttempts := defaultAttempts

def new (casUrl instanceName : String) : Except CasError CasConfig := do
  let config := defaults casUrl instanceName
  withContext (validateInstanceName config.instanceName)
    "validate CAS instance name while constructing CasConfig"
  withContext (validateRetryAttempts config.maxAttempts)
    "validate retry attempts while constructing CasConfig"
  .ok config

example : new "grpc://localhost:9092" "main" =
    .ok (defaults "grpc://localhost:9092" "main") := by
  rfl

end CasConfig

end Cas

end RemoteFs
