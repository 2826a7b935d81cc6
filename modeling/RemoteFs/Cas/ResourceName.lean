import RemoteFs.Cas.ByteStreamWrite
import RemoteFs.Cas.Config

/-!
# Reading resource names back

A resource name is read by cutting it at its first segment that is a reserved keyword. An
accepted instance name has none, so what stands before that segment is the instance name,
whatever its number of segments.
-/

namespace RemoteFs

namespace Cas

/-- The segments that an instance name must not have. -/
def reservedSegments : List String := ["blobs", "uploads", "compressed-blobs"]

def unreserved (segment : String) : Bool := decide (segment ∉ reservedSegments)

def segments (name : String) : List String :=
  (name.toList.splitOn '/').map String.ofList

def joinSegments (segments : List String) : String :=
  String.ofList (['/'].intercalate (segments.map String.toList))

/-- A resource name cut at its first reserved segment. -/
structure KeywordSplit where
  instanceName : String
  keyword : String
  arguments : List String
  deriving DecidableEq, Repr

def splitAtKeyword (name : String) : Option KeywordSplit :=
  match (segments name).dropWhile unreserved with
  | [] => none
  | keyword :: arguments =>
      some ⟨joinSegments ((segments name).takeWhile unreserved), keyword, arguments⟩

inductive ResourceName where
  | read (instanceName hash : String) (sizeBytes : ℕ)
  | write (instanceName uuid hash : String) (sizeBytes : ℕ)
  deriving DecidableEq, Repr

def KeywordSplit.resource (split : KeywordSplit) : Option ResourceName :=
  match split.arguments with
  | [hash, size] =>
      if split.keyword = "blobs" then
        (parseI64 size.toList).map (.read split.instanceName hash)
      else none
  | [uuid, blobs, hash, size] =>
      if split.keyword = "uploads" ∧ blobs = "blobs" then
        (parseI64 size.toList).map (.write split.instanceName uuid hash)
      else none
  | _ => none

def parseResourceName (name : String) : Option ResourceName :=
  (splitAtKeyword name).bind KeywordSplit.resource

@[simp] theorem joinSegments_segments (name : String) : joinSegments (segments name) = name := by
  simp [joinSegments, segments, Function.comp_def]

theorem segments_append (left right : String) :
    segments (left ++ "/" ++ right) = segments left ++ segments right := by
  have hlist : (left ++ "/" ++ right).toList = left.toList ++ '/' :: right.toList := by
    simp
  rw [segments, hlist, List.splitOn_append_cons_self, List.map_append, segments, segments]

theorem segments_eq_singleton {segment : String} (h : '/' ∉ segment.toList) :
    segments segment = [segment] := by
  rw [segments, List.splitOn_eq_singleton h, List.map_singleton, String.ofList_toList]

theorem validateSegments_eq_ok_iff (instanceName : String) (segments : List String) :
    validateSegments instanceName segments = .ok () ↔
      ∀ segment ∈ segments, segment ≠ "" ∧ segment ∉ reservedSegments := by
  induction segments with
  | nil => simp [validateSegments]
  | cons segment segments ih =>
      rw [List.forall_mem_cons, ← ih, validateSegments]
      split
      · next hempty => simp [hempty]
      · next hempty =>
          split
          · next hreserved => simp [reservedSegments, hreserved]
          · next hreserved => simp [reservedSegments, hempty, hreserved]

/-- An accepted instance name has non-empty segments, none of them reserved. -/
theorem validateInstanceName_eq_ok_iff (instanceName : String) :
    validateInstanceName instanceName = .ok () ↔
      ∀ segment ∈ segments instanceName, segment ≠ "" ∧ segment ∉ reservedSegments := by
  rw [validateInstanceName]
  split
  · next hempty =>
      subst hempty
      simp [segments]
  · exact validateSegments_eq_ok_iff instanceName _

theorem splitAtKeyword_of_segments {name instanceName keyword : String}
    {arguments : List String} (hvalid : validateInstanceName instanceName = .ok ())
    (hkeyword : keyword ∈ reservedSegments)
    (hname : segments name = segments instanceName ++ keyword :: arguments) :
    splitAtKeyword name = some ⟨instanceName, keyword, arguments⟩ := by
  have hfree : ∀ segment ∈ segments instanceName, unreserved segment = true := by
    intro segment hmem
    exact decide_eq_true ((validateInstanceName_eq_ok_iff instanceName).mp hvalid segment hmem).2
  have hstop : ¬ unreserved keyword = true := by
    simpa [unreserved] using hkeyword
  rw [splitAtKeyword, hname, List.dropWhile_append_of_pos hfree,
    List.dropWhile_cons_of_neg hstop, List.takeWhile_append_of_pos hfree,
    List.takeWhile_cons_of_neg hstop, List.append_nil]
  simp

theorem segments_blobs : segments "blobs" = ["blobs"] := segments_eq_singleton (by decide)

theorem segments_uploads : segments "uploads" = ["uploads"] :=
  segments_eq_singleton (by decide)

theorem slash_notMem_toString (n : ℕ) : '/' ∉ (toString n).toList := by
  intro hmem
  have hdigit := List.all_eq_true.mp (Digest.all_isAsciiDigit_toDigits n) '/' (by simpa using hmem)
  exact absurd hdigit (by decide)

theorem segments_digest (digest : Digest) :
    segments (digest.hash ++ "/" ++ toString digest.sizeBytes) =
      [digest.hash, toString digest.sizeBytes] := by
  rw [segments_append, segments_eq_singleton digest.slash_notMem_hash,
    segments_eq_singleton (slash_notMem_toString _), List.singleton_append]

theorem parseI64_toString (digest : Digest) :
    parseI64 (toString digest.sizeBytes).toList = some digest.sizeBytes := by
  simpa using Digest.parseI64_toDigits digest.sizeBytes digest.size_le

/-- The text of a UUID: hexadecimal digits in groups, with hyphens between them. -/
def HyphenatedHex (text : String) : Prop :=
  ∀ c ∈ text.toList, c = '-' ∨ isAsciiHexdigit c = true

theorem hyphenatedHex_of_all {text : String}
    (h : text.toList.all (fun c => c == '-' || isAsciiHexdigit c) = true) :
    HyphenatedHex text := by
  intro c hmem
  have hc := List.all_eq_true.mp h c hmem
  rwa [Bool.or_eq_true, beq_iff_eq] at hc

theorem HyphenatedHex.slash_notMem {text : String} (h : HyphenatedHex text) :
    '/' ∉ text.toList := by
  intro hmem
  exact absurd (h '/' hmem) (by decide)

section Names

variable {instanceName : String} (hvalid : validateInstanceName instanceName = .ok ())
  (digest : Digest)

include hvalid

theorem splitAtKeyword_read :
    splitAtKeyword (bytestreamReadResourceName instanceName digest) =
      some ⟨instanceName, "blobs", [digest.hash, toString digest.sizeBytes]⟩ := by
  refine splitAtKeyword_of_segments hvalid (by decide) ?_
  have hname : bytestreamReadResourceName instanceName digest =
      instanceName ++ "/" ++ ("blobs" ++ "/" ++
        (digest.hash ++ "/" ++ toString digest.sizeBytes)) := by
    change instanceName ++ "/blobs/" ++ digest.hash ++ "/" ++ toString digest.sizeBytes = _
    simp [← String.toList_inj]
  rw [hname, segments_append, segments_append, segments_digest, segments_blobs,
    List.singleton_append]

theorem splitAtKeyword_write {newV4 : ℕ → String} {calls : ℕ}
    (hv4 : HyphenatedHex (newV4 calls)) :
    splitAtKeyword (bytestreamWriteResourceName newV4 instanceName digest calls).1 =
      some ⟨instanceName, "uploads",
        [newV4 calls, "blobs", digest.hash, toString digest.sizeBytes]⟩ := by
  refine splitAtKeyword_of_segments hvalid (by decide) ?_
  have hname : (bytestreamWriteResourceName newV4 instanceName digest calls).1 =
      instanceName ++ "/" ++ ("uploads" ++ "/" ++ (newV4 calls ++ "/" ++
        ("blobs" ++ "/" ++ (digest.hash ++ "/" ++ toString digest.sizeBytes)))) := by
    change instanceName ++ "/uploads/" ++ newV4 calls ++ "/blobs/" ++ digest.hash ++ "/" ++
      toString digest.sizeBytes = _
    simp [← String.toList_inj]
  rw [hname, segments_append, segments_append, segments_append, segments_append,
    segments_digest, segments_blobs, segments_uploads, segments_eq_singleton hv4.slash_notMem,
    List.singleton_append, List.singleton_append, List.singleton_append]

theorem parseResourceName_read :
    parseResourceName (bytestreamReadResourceName instanceName digest) =
      some (.read instanceName digest.hash digest.sizeBytes) := by
  rw [parseResourceName, splitAtKeyword_read hvalid, Option.bind_some]
  dsimp only [KeywordSplit.resource]
  rw [if_pos rfl, parseI64_toString, Option.map_some]

theorem parseResourceName_write {newV4 : ℕ → String} {calls : ℕ}
    (hv4 : HyphenatedHex (newV4 calls)) :
    parseResourceName (bytestreamWriteResourceName newV4 instanceName digest calls).1 =
      some (.write instanceName (newV4 calls) digest.hash digest.sizeBytes) := by
  rw [parseResourceName, splitAtKeyword_write hvalid digest hv4, Option.bind_some]
  dsimp only [KeywordSplit.resource]
  rw [if_pos ⟨rfl, rfl⟩, parseI64_toString, Option.map_some]

end Names

/-- The names of the client are read back as what they were made of, so different resources
have different names. -/
theorem resource_names_unambiguous {newV4 : ℕ → String} (hv4 : ∀ n, HyphenatedHex (newV4 n)) :
    (∀ instanceName digest, validateInstanceName instanceName = .ok () →
      splitAtKeyword (bytestreamReadResourceName instanceName digest) =
        some ⟨instanceName, "blobs", [digest.hash, toString digest.sizeBytes]⟩ ∧
      parseResourceName (bytestreamReadResourceName instanceName digest) =
        some (.read instanceName digest.hash digest.sizeBytes)) ∧
    (∀ instanceName digest calls, validateInstanceName instanceName = .ok () →
      splitAtKeyword (bytestreamWriteResourceName newV4 instanceName digest calls).1 =
        some ⟨instanceName, "uploads",
          [newV4 calls, "blobs", digest.hash, toString digest.sizeBytes]⟩ ∧
      parseResourceName (bytestreamWriteResourceName newV4 instanceName digest calls).1 =
        some (.write instanceName (newV4 calls) digest.hash digest.sizeBytes)) ∧
    (∀ instanceName digest instanceName' digest',
      validateInstanceName instanceName = .ok () → validateInstanceName instanceName' = .ok () →
      bytestreamReadResourceName instanceName digest =
        bytestreamReadResourceName instanceName' digest' →
      instanceName = instanceName' ∧ digest = digest') ∧
    ∀ instanceName digest instanceName' digest' calls,
      validateInstanceName instanceName = .ok () → validateInstanceName instanceName' = .ok () →
      bytestreamReadResourceName instanceName digest ≠
        (bytestreamWriteResourceName newV4 instanceName' digest' calls).1 := by
  refine ⟨?_, ?_, ?_, ?_⟩
  · intro instanceName digest hvalid
    exact ⟨splitAtKeyword_read hvalid digest, parseResourceName_read hvalid digest⟩
  · intro instanceName digest calls hvalid
    exact ⟨splitAtKeyword_write hvalid digest (hv4 calls),
      parseResourceName_write hvalid digest (hv4 calls)⟩
  · intro instanceName digest instanceName' digest' hvalid hvalid' hname
    have hparse := parseResourceName_read hvalid digest
    rw [hname, parseResourceName_read hvalid' digest', Option.some.injEq,
      ResourceName.read.injEq] at hparse
    obtain ⟨hinstance, hhash, hsize⟩ := hparse
    exact ⟨hinstance.symm, Digest.ext hhash.symm hsize.symm⟩
  · intro instanceName digest instanceName' digest' calls hvalid hvalid' hname
    have hparse := parseResourceName_read hvalid digest
    rw [hname, parseResourceName_write hvalid' digest' (hv4 calls)] at hparse
    cases hparse

/-- The theorem at one UUID, with an instance name of two segments. -/
theorem resource_names_unambiguous_sample :
    validateInstanceName "team/main" = .ok () ∧
    parseResourceName (bytestreamReadResourceName "team/main" Digest.Sample.contentDigest) =
      some (.read "team/main" Digest.Sample.contentDigest.hash
        Digest.Sample.contentDigest.sizeBytes) ∧
    bytestreamReadResourceName "team/main" Digest.Sample.contentDigest ≠
      (bytestreamWriteResourceName (fun _ => "67e55044-10b1-426f-9247-bb680e5fe0c8")
        "team/main" Digest.Sample.contentDigest 0).1 := by
  have hvalid : validateInstanceName "team/main" = .ok () := by rfl
  have hv4 : ∀ _ : ℕ, HyphenatedHex "67e55044-10b1-426f-9247-bb680e5fe0c8" :=
    fun _ => hyphenatedHex_of_all rfl
  obtain ⟨hread, -, -, hne⟩ := resource_names_unambiguous hv4
  exact ⟨hvalid, (hread _ _ hvalid).2, hne _ _ _ _ 0 hvalid hvalid⟩

end Cas

end RemoteFs
