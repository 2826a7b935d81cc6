import RemoteFs.Tree.RoundTrip

/-!
# The language of the decoder

`DocumentedDirectory` is what the documentation of the decoder asks of the bytes of a
directory: valid metadata for every node, whatever its kind. The decoder looks at
the times of files, symlinks and the directory itself, but not at those of the
directory nodes, so it accepts the documented language up to these.
-/

namespace RemoteFs

namespace Tree

open RemoteFs.Reapi

section Language

variable [Sha256] [Prost]

/-- The bytes are a canonical directory with the expected digest: sorted names, each
valid and used once, valid digests, and supported times. -/
structure DocumentedDirectory (expected : Digest) (bytes : Bytes) (directory : Directory) :
    Prop where
  digest : Digest.forBytes bytes = expected
  parsed : Prost.decode bytes = .ok directory
  files_sorted : StrictlySorted (directory.files.map FileNode.name)
  directories_sorted : StrictlySorted (directory.directories.map DirectoryNode.name)
  symlinks_sorted : StrictlySorted (directory.symlinks.map SymlinkNode.name)
  names_nodup : (directoryNames directory).Nodup
  names_valid : ∀ name ∈ directoryNames directory, ValidName name
  file_digest : ∀ node ∈ directory.files, DigestPresent node.digest
  directory_digest : ∀ node ∈ directory.directories, DigestPresent node.digest
  root_time : PropertiesSupported directory.nodeProperties
  file_time : ∀ node ∈ directory.files, PropertiesSupported node.nodeProperties
  directory_time : ∀ node ∈ directory.directories, PropertiesSupported node.nodeProperties
  symlink_time : ∀ node ∈ directory.symlinks, PropertiesSupported node.nodeProperties

/-- The documented language is the accepted one with the times of directory nodes. -/
theorem documentedDirectory_iff (expected : Digest) (bytes : Bytes) (directory : Directory) :
    DocumentedDirectory expected bytes directory ↔
      decodeDirectory expected bytes = .ok directory ∧
        ∀ node ∈ directory.directories, PropertiesSupported node.nodeProperties := by
  rw [decodeDirectory_eq_ok_iff]
  constructor
  · intro h
    refine ⟨⟨h.digest, h.parsed, ?_⟩, h.directory_time⟩
    exact
      { files_sorted := h.files_sorted
        directories_sorted := h.directories_sorted
        symlinks_sorted := h.symlinks_sorted
        names_nodup := h.names_nodup
        names_valid := h.names_valid
        root_time := h.root_time
        file_digest := h.file_digest
        file_time := h.file_time
        directory_digest := h.directory_digest
        symlink_time := h.symlink_time }
  · rintro ⟨⟨hdigest, hparsed, h⟩, htime⟩
    exact
      { digest := hdigest
        parsed := hparsed
        files_sorted := h.files_sorted
        directories_sorted := h.directories_sorted
        symlinks_sorted := h.symlinks_sorted
        names_nodup := h.names_nodup
        names_valid := h.names_valid
        file_digest := h.file_digest
        directory_digest := h.directory_digest
        root_time := h.root_time
        file_time := h.file_time
        directory_time := htime
        symlink_time := h.symlink_time }

/-- The decoder accepts exactly the documented bytes, unless they meet every other
rule and the time of a directory node is not supported. -/
theorem decodeDirectory_accepts_documented_iff (expected : Digest) (bytes : Bytes) :
    ((∃ directory, decodeDirectory expected bytes = .ok directory) ↔
        ∃ directory, DocumentedDirectory expected bytes directory) ↔
      ∀ directory, Digest.forBytes bytes = expected → Prost.decode bytes = .ok directory →
        WellFormedDirectory directory →
        ∀ node ∈ directory.directories, PropertiesSupported node.nodeProperties := by
  simp only [documentedDirectory_iff]
  constructor
  · intro hsame directory hdigest hparsed hwell
    have hok := (decodeDirectory_eq_ok_iff expected bytes directory).mpr
      ⟨hdigest, hparsed, hwell⟩
    obtain ⟨other, hother, htime⟩ := hsame.mp ⟨directory, hok⟩
    rw [hok, Except.ok.injEq] at hother
    exact hother ▸ htime
  · intro htimes
    constructor
    · rintro ⟨directory, hok⟩
      obtain ⟨hdigest, hparsed, hwell⟩ := (decodeDirectory_eq_ok_iff _ _ _).mp hok
      exact ⟨directory, hok, htimes directory hdigest hparsed hwell⟩
    · rintro ⟨directory, hok, -⟩
      exact ⟨directory, hok⟩

end Language

namespace Sample

/-- A directory with an empty directory whose time has `10 ^ 9` nanoseconds. -/
def late : Directory where
  files := []
  directories :=
    [{ name := "d"
       digest := some ⟨"e3b0c44298fc1c149afbf4c8996fb92427ae41e4649b934ca495991b7852b855", 0⟩
       nodeProperties := some ⟨[], some ⟨0, 1000000000⟩, none⟩ }]
  symlinks := []
  nodeProperties := none

def lateBytes : Bytes :=
  [18, 81, 10, 1, 100, 18, 66, 10, 64, 101, 51, 98, 48, 99, 52, 52, 50, 57, 56, 102, 99, 49,
    99, 49, 52, 57, 97, 102, 98, 102, 52, 99, 56, 57, 57, 54, 102, 98, 57, 50, 52, 50, 55, 97,
    101, 52, 49, 101, 52, 54, 52, 57, 98, 57, 51, 52, 99, 97, 52, 57, 53, 57, 57, 49, 98, 55,
    56, 53, 50, 98, 56, 53, 53, 26, 8, 18, 6, 16, 128, 148, 235, 220, 3]

def lateDigest : Digest where
  hash := "acd72386a7412e68485e4fbfdb29d64ac3851793d4393367979d0d66b3069c20"
  sizeBytes := 83
  hash_valid := ⟨by decide, by decide⟩
  size_le := by decide

def lateBlobs : List (Bytes × Vector UInt8 32) :=
  [(lateBytes, #v[172, 215, 35, 134, 167, 65, 46, 104, 72, 94, 79, 191, 219, 41, 214, 74, 195,
    133, 23, 147, 212, 57, 51, 103, 151, 157, 13, 102, 179, 6, 156, 32])]

@[reducible] def prost (directory : Directory) (bytes : Bytes) : Prost where
  encodeToVec _ := bytes
  decode b := if b = bytes then .ok directory else .error "failed to decode Protobuf message"

end Sample

/-- The decoder accepts a directory node with a time outside the supported range. -/
theorem decodeDirectory_accepts_late :
    letI : Sha256 := Sample.sha256 Sample.lateBlobs
    letI : Prost := Sample.prost Sample.late Sample.lateBytes
    decodeDirectory Sample.lateDigest Sample.lateBytes = .ok Sample.late ∧
      ¬ ∃ directory, DocumentedDirectory Sample.lateDigest Sample.lateBytes directory := by
  let _ : Sha256 := Sample.sha256 Sample.lateBlobs
  let _ : Prost := Sample.prost Sample.late Sample.lateBytes
  have hok : decodeDirectory Sample.lateDigest Sample.lateBytes = .ok Sample.late := by
    decide +kernel
  refine ⟨hok, ?_⟩
  rintro ⟨directory, h⟩
  obtain ⟨hother, htimes⟩ := (documentedDirectory_iff _ _ _).mp h
  rw [hok, Except.ok.injEq] at hother
  subst hother
  have htime := htimes _ (List.mem_singleton_self _) ⟨0, 1000000000⟩ rfl
  revert htime
  decide

end Tree

end RemoteFs
