import RemoteFs.Digest.Text
import RemoteFs.Tree.Builder

/-!
# Decoding a canonical directory

`decodeDirectory` accepts a blob when its bytes hash to the expected digest,
parse as a `Directory`, and the message passes `validateDirectory`. The
validator is a sequence of loops over the three node lists;
`validateDirectory_eq_ok_iff` replaces them by the structure
`WellFormedDirectory`, one field for each thing that is checked. The properties
of directory nodes are not among them.
-/

namespace RemoteFs

namespace Tree

open Reapi

def TreeError.display : TreeError → String
  | .invalidName name reason => s!"Invalid entry name `{name}`: {reason}"
  | .duplicateName name => s!"Duplicate tree entry name `{name}`"
  | .missingDigest name => s!"Entry `{name}` is missing digest"
  | .nonUtf8Name path => s!"Path contains a non-UTF-8 name: {path.display}"
  | .nonUtf8SymlinkTarget path => s!"Symlink target is not UTF-8 for {path.display}"
  | .unsupportedNodeType path kind => s!"Unsupported node type at {path.display}: {kind}"
  | .unsupportedTimestamp path seconds nanos =>
      s!"Unsupported timestamp at {path.display}: seconds={seconds} nanos={nanos}"
  | .decode digest source => s!"Failed to decode directory {digest.display}: {source}"
  | .digestMismatch expected actual =>
      s!"Directory digest mismatch: expected {expected.display}, got {actual.display}"
  | .invalidDigest name source =>
      s!"Invalid digest in directory entry `{name}`: {source.display}"
  | .context operation source => s!"{operation}: {source.display}"

/-- The loop over the names of one kind, carrying the previous name. -/
def validateSortedNames (previous : Option String) : List String → Except TreeError Unit
  | [] => .ok ()
  | name :: names =>
      if previous.any fun previous => nameKey name ≤ nameKey previous then
        .error (.duplicateName name)
      else validateSortedNames (some name) names

def validateNodeProperties (name : String) (properties : Option NodeProperties) :
    Except TreeError Unit :=
  match properties.bind fun properties => properties.mtime with
  | none => .ok ()
  | some timestamp =>
      withContext (validateTimestamp [.utf8 name] timestamp)
        s!"validate node properties timestamp for {name}"

def requireDigest (name : String) (digest : Option Reapi.Digest) : Except TreeError Digest :=
  match digest with
  | none => .error (.missingDigest name)
  | some digest => (Digest.fromReapi digest).mapError fun source => .invalidDigest name source

/-- The names of a message: files, then directories, then symlinks. -/
def directoryNames (directory : Directory) : List String :=
  directory.files.map FileNode.name ++ directory.directories.map DirectoryNode.name ++
    directory.symlinks.map SymlinkNode.name

def validateDirectory (directory : Directory) : Except TreeError Unit := do
  withContext (validateSortedNames none (directory.files.map FileNode.name))
    "validate sorted file node names"
  withContext (validateSortedNames none (directory.directories.map DirectoryNode.name))
    "validate sorted directory node names"
  withContext (validateSortedNames none (directory.symlinks.map SymlinkNode.name))
    "validate sorted symlink node names"
  Result.forDistinct
    (fun name => withContext (validateName name) s!"validate decoded node name {name}") id
    TreeError.duplicateName (fun _ => .ok ()) (directoryNames directory) []
  withContext (validateNodeProperties "." directory.nodeProperties)
    "validate root directory node properties"
  directory.files.forM fun node => do
    let _ ← requireDigest node.name node.digest
    withContext (validateNodeProperties node.name node.nodeProperties)
      s!"validate file node properties for {node.name}"
  directory.directories.forM fun node => do
    let _ ← requireDigest node.name node.digest
  directory.symlinks.forM fun node =>
    withContext (validateNodeProperties node.name node.nodeProperties)
      s!"validate symlink node properties for {node.name}"

/-- Decode and validate the blob named by `expected`. -/
def decodeDirectory [Sha256] [Prost] (expected : Digest) (bytes : Bytes) :
    Except TreeError Directory := do
  let actual := Digest.forBytes bytes
  if actual ≠ expected then .error (.digestMismatch expected actual)
  else
    let directory ← (Prost.decode bytes).mapError fun source => .decode expected source
    withContext (validateDirectory directory)
      s!"validate decoded REAPI Directory {expected.display}"
    .ok directory

def StrictlySorted (names : List String) : Prop :=
  names.Pairwise fun left right => nameKey left < nameKey right

/-- The time in the properties, if there is one, is supported. -/
def PropertiesSupported (properties : Option NodeProperties) : Prop :=
  ∀ timestamp ∈ properties.bind fun properties => properties.mtime,
    SupportedTimestamp timestamp

def DigestPresent (digest : Option Reapi.Digest) : Prop :=
  ∃ wire, digest = some wire ∧ ∃ d, Digest.fromReapi wire = .ok d

structure WellFormedDirectory (directory : Directory) : Prop where
  files_sorted : StrictlySorted (directory.files.map FileNode.name)
  directories_sorted : StrictlySorted (directory.directories.map DirectoryNode.name)
  symlinks_sorted : StrictlySorted (directory.symlinks.map SymlinkNode.name)
  names_nodup : (directoryNames directory).Nodup
  names_valid : ∀ name ∈ directoryNames directory, ValidName name
  root_time : PropertiesSupported directory.nodeProperties
  file_digest : ∀ node ∈ directory.files, DigestPresent node.digest
  file_time : ∀ node ∈ directory.files, PropertiesSupported node.nodeProperties
  directory_digest : ∀ node ∈ directory.directories, DigestPresent node.digest
  symlink_time : ∀ node ∈ directory.symlinks, PropertiesSupported node.nodeProperties

theorem validateSortedNames_some_eq_ok_iff (previous : String) (names : List String) :
    validateSortedNames (some previous) names = .ok () ↔
      StrictlySorted (previous :: names) := by
  induction names generalizing previous with
  | nil => simp [validateSortedNames, StrictlySorted]
  | cons name names ih =>
      by_cases hle : nameKey name ≤ nameKey previous
      · have hnot : ¬ StrictlySorted (previous :: name :: names) := by
          intro hsorted
          have hlt := List.rel_of_pairwise_cons hsorted List.mem_cons_self
          exact absurd hle (not_le.mpr hlt)
        simp [validateSortedNames, hle, hnot]
      · have hlt : nameKey previous < nameKey name := not_le.mp hle
        have hstep : StrictlySorted (previous :: name :: names) ↔
            StrictlySorted (name :: names) := by
          unfold StrictlySorted
          rw [List.pairwise_cons]
          refine ⟨fun h => h.2, fun h => ⟨?_, h⟩⟩
          intro other hother
          rcases List.mem_cons.mp hother with rfl | hother
          · exact hlt
          · exact hlt.trans (List.rel_of_pairwise_cons h hother)
        simp [validateSortedNames, hle, ih, hstep]

theorem validateSortedNames_eq_ok_iff (names : List String) :
    validateSortedNames none names = .ok () ↔ StrictlySorted names := by
  cases names with
  | nil => simp [validateSortedNames, StrictlySorted]
  | cons name names =>
      simp [validateSortedNames, validateSortedNames_some_eq_ok_iff]

theorem validateNodeProperties_eq_ok_iff (name : String) (properties : Option NodeProperties) :
    validateNodeProperties name properties = .ok () ↔ PropertiesSupported properties := by
  unfold validateNodeProperties PropertiesSupported
  cases properties.bind fun properties => properties.mtime with
  | none => simp
  | some timestamp => simp [validateTimestamp_eq_ok_iff]

theorem requireDigest_eq_ok_iff (name : String) (digest : Option Reapi.Digest) (d : Digest) :
    requireDigest name digest = .ok d ↔
      ∃ wire, digest = some wire ∧ Digest.fromReapi wire = .ok d := by
  cases digest with
  | none => simp [requireDigest]
  | some wire => simp [requireDigest]

/-- The specification of the validator. -/
theorem validateDirectory_eq_ok_iff (directory : Directory) :
    validateDirectory directory = .ok () ↔ WellFormedDirectory directory := by
  have hfile : ∀ node : FileNode, (do
      let _ ← requireDigest node.name node.digest
      withContext (validateNodeProperties node.name node.nodeProperties)
        s!"validate file node properties for {node.name}") = .ok () ↔
      DigestPresent node.digest ∧ PropertiesSupported node.nodeProperties := by
    intro node
    simp only [Result.bind_eq_ok_iff, requireDigest_eq_ok_iff, withContext_eq_ok_iff,
      validateNodeProperties_eq_ok_iff, DigestPresent]
    tauto
  have hdirectory : ∀ node : DirectoryNode, (do
      let _ ← requireDigest node.name node.digest
      pure PUnit.unit : Except TreeError PUnit) = .ok () ↔ DigestPresent node.digest := by
    intro node
    simp only [Result.bind_eq_ok_iff, requireDigest_eq_ok_iff, DigestPresent, pure,
      Except.pure]
    tauto
  simp only [validateDirectory, Result.check_bind_eq_ok_iff, withContext_eq_ok_iff,
    validateSortedNames_eq_ok_iff, Result.forDistinct_eq_ok_iff, validateName_eq_ok_iff,
    validateNodeProperties_eq_ok_iff, Result.forM_eq_ok_iff, hfile, hdirectory, and_true,
    List.map_id]
  constructor
  · rintro ⟨hf, hd, hs, ⟨hvalid, hnodup⟩, hroot, hfiles, hdirectories, hsymlinks⟩
    exact ⟨hf, hd, hs, hnodup, hvalid, hroot, fun node hnode => (hfiles node hnode).1,
      fun node hnode => (hfiles node hnode).2, hdirectories, hsymlinks⟩
  · intro h
    exact ⟨h.files_sorted, h.directories_sorted, h.symlinks_sorted,
      ⟨h.names_valid, h.names_nodup⟩, h.root_time,
      fun node hnode => ⟨h.file_digest node hnode, h.file_time node hnode⟩,
      h.directory_digest, h.symlink_time⟩

/-- The specification of the decoder. -/
theorem decodeDirectory_eq_ok_iff [Sha256] [Prost] (expected : Digest) (bytes : Bytes)
    (directory : Directory) :
    decodeDirectory expected bytes = .ok directory ↔
      Digest.forBytes bytes = expected ∧ Prost.decode bytes = .ok directory ∧
        WellFormedDirectory directory := by
  unfold decodeDirectory
  by_cases hdigest : Digest.forBytes bytes = expected
  · simp only [hdigest, ne_eq, not_true_eq_false, if_false, Result.bind_eq_ok_iff,
      Result.mapError_eq_ok_iff, withContext_eq_ok_iff, Except.ok.injEq, true_and]
    constructor
    · rintro ⟨decoded, hdecode, _, hvalid, rfl⟩
      exact ⟨hdecode, (validateDirectory_eq_ok_iff decoded).mp hvalid⟩
    · rintro ⟨hdecode, hvalid⟩
      exact ⟨directory, hdecode, (), (validateDirectory_eq_ok_iff directory).mpr hvalid, rfl⟩
  · simp [hdigest]

end Tree

end RemoteFs
