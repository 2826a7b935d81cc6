import RemoteFs.Basic.ErrorContext
import RemoteFs.Reapi

/-!
# Node metadata

The properties of a node are its Unix mode and its modification time, both
optional. Encoding masks the mode to the bits its kind supports, counts a
warning for a masked set-uid or set-gid bit, and rejects a time outside the
protobuf `Timestamp` range. `normalizeOptionalMetadata_eq_ok_iff` says all of
it at once: normalization succeeds exactly on supported times, and then the
properties are `properties` and the warnings are `modeWarnings`.
-/

namespace RemoteFs

namespace Tree

open Reapi

def setuidBit : UInt32 := 0o4000
def setgidBit : UInt32 := 0o2000
def stickyBit : UInt32 := 0o1000
def permissionBits : UInt32 := 0o777
def fileModeMask : UInt32 := permissionBits
def directoryModeMask : UInt32 := permissionBits ||| stickyBit
def symlinkModeMask : UInt32 := permissionBits
def minTimestampSeconds : Int64 := -62135596800
def maxTimestampSeconds : Int64 := 253402300799

inductive NodeKind where
  | file
  | directory
  | symlink
  deriving DecidableEq, Repr

def NodeKind.display : NodeKind → String
  | .file => "File"
  | .directory => "Directory"
  | .symlink => "Symlink"

def NodeKind.modeMask : NodeKind → UInt32
  | .file => fileModeMask
  | .directory => directoryModeMask
  | .symlink => symlinkModeMask

inductive TreeError where
  | invalidName (name reason : String)
  | duplicateName (name : String)
  | missingDigest (name : String)
  | nonUtf8Name (path : PathBuf)
  | nonUtf8SymlinkTarget (path : PathBuf)
  | unsupportedNodeType (path : PathBuf) (kind : String)
  | unsupportedTimestamp (path : PathBuf) (seconds : Int64) (nanos : Int32)
  | decode (digest : Digest) (source : String)
  | digestMismatch (expected actual : Digest)
  | invalidDigest (name : String) (source : DigestError)
  | context (operation : String) (source : TreeError)
  deriving DecidableEq

instance : ResultContextError TreeError where
  withContext source operation := .context operation source

structure TreeWarnings where
  maskedSetuid : ℕ := 0
  maskedSetgid : ℕ := 0
  absoluteSymlinks : ℕ := 0
  escapingSymlinks : ℕ := 0
  deriving DecidableEq, Repr

inductive TreeWarning where
  | maskedSetuid (path : PathBuf)
  | maskedSetgid (path : PathBuf)
  | absoluteSymlink (path : PathBuf) (target : String)
  | escapingSymlink (path : PathBuf) (target : String)

namespace TreeWarnings

def add (w : TreeWarnings) : TreeWarning → TreeWarnings
  | .maskedSetuid _ => { w with maskedSetuid := w.maskedSetuid + 1 }
  | .maskedSetgid _ => { w with maskedSetgid := w.maskedSetgid + 1 }
  | .absoluteSymlink _ _ => { w with absoluteSymlinks := w.absoluteSymlinks + 1 }
  | .escapingSymlink _ _ => { w with escapingSymlinks := w.escapingSymlinks + 1 }

def merge (w other : TreeWarnings) : TreeWarnings where
  maskedSetuid := w.maskedSetuid + other.maskedSetuid
  maskedSetgid := w.maskedSetgid + other.maskedSetgid
  absoluteSymlinks := w.absoluteSymlinks + other.absoluteSymlinks
  escapingSymlinks := w.escapingSymlinks + other.escapingSymlinks

end TreeWarnings

structure NodeMetadata where
  mode : Option UInt32
  mtime : Option Timestamp
  kind : NodeKind
  deriving DecidableEq

def SupportedTimestamp (timestamp : Timestamp) : Prop :=
  (0 ≤ timestamp.nanos ∧ timestamp.nanos ≤ 999999999) ∧
    ¬ timestamp.seconds < minTimestampSeconds ∧ ¬ timestamp.seconds > maxTimestampSeconds

instance (timestamp : Timestamp) : Decidable (SupportedTimestamp timestamp) := by
  unfold SupportedTimestamp
  infer_instance

def validateTimestamp (path : PathBuf) (timestamp : Timestamp) : Except TreeError Unit :=
  if ¬ (0 ≤ timestamp.nanos ∧ timestamp.nanos ≤ 999999999) ∨
      timestamp.seconds < minTimestampSeconds ∨ timestamp.seconds > maxTimestampSeconds then
    .error (.unsupportedTimestamp path timestamp.seconds timestamp.nanos)
  else .ok ()

theorem validateTimestamp_eq_ok_iff (path : PathBuf) (timestamp : Timestamp) :
    validateTimestamp path timestamp = .ok () ↔ SupportedTimestamp timestamp := by
  unfold validateTimestamp SupportedTimestamp
  split
  · next h => simp only [reduceCtorEq, false_iff]; tauto
  · next h => simp only [true_iff]; tauto

namespace NodeMetadata

def modeWarnings (self : NodeMetadata) (path : PathBuf) : TreeWarnings :=
  match self.mode with
  | none => {}
  | some mode =>
      let warnings : TreeWarnings := {}
      let warnings :=
        if mode &&& setuidBit ≠ 0 then warnings.add (.maskedSetuid path) else warnings
      if mode &&& setgidBit ≠ 0 then warnings.add (.maskedSetgid path) else warnings

/-- The metadata with its mode masked to the bits of its kind. -/
def masked (self : NodeMetadata) : NodeMetadata :=
  { self with mode := self.mode.map fun mode => mode &&& self.kind.modeMask }

def normalize (self : NodeMetadata) (path : PathBuf) :
    Except TreeError (NodeMetadata × TreeWarnings) := do
  let warnings := self.modeWarnings path
  match self.mtime with
  | none => .ok (self.masked, warnings)
  | some timestamp => do
      withContext (validateTimestamp path timestamp)
        s!"validate mtime for {path.display}"
      .ok (self.masked, warnings)

def intoNodeProperties (self : NodeMetadata) : Option NodeProperties :=
  if self.mode.isNone ∧ self.mtime.isNone then none
  else some { properties := [], mtime := self.mtime, unixMode := self.mode }

/-- The properties the encoder emits for the metadata. -/
def properties (self : NodeMetadata) : Option NodeProperties :=
  self.masked.intoNodeProperties

/-- The time of the node, if it has one, is supported. -/
def TimeSupported (self : NodeMetadata) : Prop :=
  ∀ timestamp ∈ self.mtime, SupportedTimestamp timestamp

instance (self : NodeMetadata) : Decidable self.TimeSupported :=
  inferInstanceAs (Decidable (∀ timestamp ∈ self.mtime, SupportedTimestamp timestamp))

theorem normalize_eq_ok_iff (self : NodeMetadata) (path : PathBuf)
    (result : NodeMetadata × TreeWarnings) :
    self.normalize path = .ok result ↔
      self.TimeSupported ∧ result = (self.masked, self.modeWarnings path) := by
  unfold normalize TimeSupported
  cases hmtime : self.mtime with
  | none => simp [eq_comm]
  | some timestamp =>
      simp only [Result.bind_eq_ok_iff, withContext_eq_ok_iff, Except.ok.injEq,
        Option.mem_some_iff, forall_eq']
      constructor
      · rintro ⟨_, hvalid, rfl⟩
        exact ⟨(validateTimestamp_eq_ok_iff path timestamp).mp hvalid, rfl⟩
      · rintro ⟨hvalid, rfl⟩
        exact ⟨(), (validateTimestamp_eq_ok_iff path timestamp).mpr hvalid, rfl⟩

theorem properties_eq_none_iff (self : NodeMetadata) :
    self.properties = none ↔ self.mode = none ∧ self.mtime = none := by
  simp [properties, masked, intoNodeProperties]

theorem properties_mtime (self : NodeMetadata) :
    (self.properties.bind fun properties => properties.mtime) = self.mtime := by
  unfold properties intoNodeProperties
  split
  · next h =>
      have hmtime : self.mtime = none := by simpa [masked] using h.2
      simp [hmtime]
  · rfl

theorem properties_unixMode (self : NodeMetadata) :
    (self.properties.bind fun properties => properties.unixMode) =
      self.mode.map fun mode => mode &&& self.kind.modeMask := by
  unfold properties intoNodeProperties
  split
  · next h =>
      have hmode : self.mode = none := by simpa [masked] using h.1
      simp [hmode]
  · rfl

end NodeMetadata

def normalizeOptionalMetadata (metadata : Option NodeMetadata) (path : PathBuf)
    (warnings : TreeWarnings) : Except TreeError (Option NodeProperties × TreeWarnings) :=
  match metadata with
  | none => .ok (none, warnings)
  | some metadata => do
      let (metadata, metadataWarnings) ←
        withContext (metadata.normalize path) s!"normalize node metadata for {path.display}"
      .ok (metadata.intoNodeProperties, warnings.merge metadataWarnings)

/-- What normalization does to present metadata: it succeeds exactly when the
time is supported, whatever the warnings met before. -/
theorem normalizeOptionalMetadata_some_eq_ok_iff (metadata : NodeMetadata) (path : PathBuf)
    (warnings : TreeWarnings) (result : Option NodeProperties × TreeWarnings) :
    normalizeOptionalMetadata (some metadata) path warnings = .ok result ↔
      metadata.TimeSupported ∧
        result = (metadata.properties, warnings.merge (metadata.modeWarnings path)) := by
  simp only [normalizeOptionalMetadata, Result.bind_eq_ok_iff, withContext_eq_ok_iff,
    NodeMetadata.normalize_eq_ok_iff, Except.ok.injEq]
  constructor
  · rintro ⟨normalized, ⟨hsupported, rfl⟩, rfl⟩
    exact ⟨hsupported, rfl⟩
  · rintro ⟨hsupported, rfl⟩
    exact ⟨_, ⟨hsupported, rfl⟩, rfl⟩

end Tree

end RemoteFs
