import Mathlib.Algebra.Group.Nat.Defs
import RemoteFs.Basic.Text

/-!
# Content digests

A digest is a lowercase SHA-256 hash together with the size of the content. A
`Digest` carries the proof that its hash has 64 lowercase hexadecimal digits
and that its size fits a non-negative `i64`, so every value of the type is one
the checked constructor `Digest.new` accepts.

The hash function itself is a parameter: `Sha256` is any function from byte
strings to 32 bytes.
-/

namespace RemoteFs

/-- The SHA-256 implementation: any function to 32 bytes. -/
class Sha256 where
  digest : Bytes → Vector UInt8 32

def i64Max : ℕ := 2 ^ 63 - 1

def u64Max : ℕ := 2 ^ 64 - 1

inductive DigestError where
  | invalidFormat
  | unsupportedHash
  | invalidHash
  | invalidSize (value : String)
  | sizeMismatch (expected actual : ℕ)
  | hashMismatch (expected actual : String)
  deriving DecidableEq, Repr

def DigestError.display : DigestError → String
  | .invalidFormat =>
      "Invalid digest format. Expected 'sha256:<64-lowercase-hex>/<decimal-size-bytes>'"
  | .unsupportedHash => "Unsupported hash function. Only 'sha256' is supported"
  | .invalidHash =>
      "Invalid hash character or length. Expected 64 lowercase hex characters"
  | .invalidSize value => s!"Invalid size value: {value}"
  | .sizeMismatch expected actual =>
      s!"Digest size mismatch: expected {expected} bytes, got {actual} bytes"
  | .hashMismatch expected actual =>
      s!"Digest hash mismatch: expected {expected}, got {actual}"

def isAsciiDigit (c : Char) : Bool :=
  '0' ≤ c ∧ c ≤ '9'

def isAsciiLowercase (c : Char) : Bool :=
  'a' ≤ c ∧ c ≤ 'z'

def isAsciiAlphabetic (c : Char) : Bool :=
  isAsciiLowercase c ∨ ('A' ≤ c ∧ c ≤ 'Z')

def isAsciiHexdigit (c : Char) : Bool :=
  isAsciiDigit c ∨ ('a' ≤ c ∧ c ≤ 'f') ∨ ('A' ≤ c ∧ c ≤ 'F')

def invalidHashChar (c : Char) : Bool :=
  !isAsciiHexdigit c || (isAsciiAlphabetic c && !isAsciiLowercase c)

structure ValidHash (hash : String) : Prop where
  length : hash.utf8ByteSize = 64
  chars : hash.toList.any invalidHashChar = false

structure Digest where
  hash : String
  sizeBytes : ℕ
  hash_valid : ValidHash hash
  size_le : sizeBytes ≤ i64Max

namespace Digest

@[ext] theorem ext {d e : Digest} (hhash : d.hash = e.hash)
    (hsize : d.sizeBytes = e.sizeBytes) : d = e := by
  cases d
  cases e
  simp only [mk.injEq]
  exact ⟨hhash, hsize⟩

theorem eq_iff (d e : Digest) : d = e ↔ d.hash = e.hash ∧ d.sizeBytes = e.sizeBytes :=
  ⟨fun h => by simp [h], fun h => ext h.1 h.2⟩

instance : DecidableEq Digest := fun d e =>
  decidable_of_iff (d.hash = e.hash ∧ d.sizeBytes = e.sizeBytes) (eq_iff d e).symm

def new (hash : String) (sizeBytes : Int64) : Except DigestError Digest :=
  if hlen : hash.utf8ByteSize ≠ 64 then .error .invalidHash
  else if hchars : hash.toList.any invalidHashChar = true then .error .invalidHash
  else if sizeBytes < 0 then .error (.invalidSize (toString sizeBytes))
  else
    .ok
      { hash := hash
        sizeBytes := sizeBytes.toNatClampNeg
        hash_valid := ⟨not_not.mp hlen, Bool.not_eq_true _ ▸ hchars⟩
        size_le := Nat.le_pred_of_lt sizeBytes.toNatClampNeg_lt }

end Digest

def hexDigit (n : ℕ) : Char :=
  if n < 10 then Char.ofNat (48 + n) else Char.ofNat (87 + n)

/-- `hex::encode`: two lowercase digits for each byte. -/
def hexEncode (bytes : List UInt8) : String :=
  String.ofList (bytes.flatMap fun b => [hexDigit (b.toNat / 16), hexDigit (b.toNat % 16)])

theorem hexDigit_lt_sixteen :
    ∀ n < 16, (hexDigit n).utf8Size = 1 ∧ invalidHashChar (hexDigit n) = false := by
  decide

theorem utf8ByteSize_ofList_of_ascii (cs : List Char) (h : ∀ c ∈ cs, c.utf8Size = 1) :
    (String.ofList cs).utf8ByteSize = cs.length := by
  induction cs with
  | nil => rfl
  | cons c cs ih =>
      have hrest := ih fun c' hc' => h c' (List.mem_cons_of_mem c hc')
      have hcons : String.ofList (c :: cs) = String.singleton c ++ String.ofList cs := by
        simp
      rw [hcons, String.utf8ByteSize_append, String.utf8ByteSize_singleton,
        h c List.mem_cons_self, hrest, List.length_cons, Nat.add_comm]

theorem hexEncode_chars (bytes : List UInt8) (c : Char)
    (hc : c ∈ (hexEncode bytes).toList) : c.utf8Size = 1 ∧ invalidHashChar c = false := by
  rw [hexEncode, String.toList_ofList, List.mem_flatMap] at hc
  obtain ⟨b, -, hc⟩ := hc
  have hb : b.toNat < 256 := b.toNat_lt
  rcases List.mem_pair.mp hc with rfl | rfl
  · exact hexDigit_lt_sixteen (b.toNat / 16) (by omega)
  · exact hexDigit_lt_sixteen (b.toNat % 16) (by omega)

theorem hexEncode_valid (output : Vector UInt8 32) : ValidHash (hexEncode output.toList) where
  length := by
    have hascii := fun c hc => (hexEncode_chars output.toList c hc).1
    rw [hexEncode, String.toList_ofList] at hascii
    rw [hexEncode, utf8ByteSize_ofList_of_ascii _ hascii]
    simp [List.length_flatMap]
  chars := by
    rw [List.any_eq_false]
    intro c hc
    rw [(hexEncode_chars output.toList c hc).2]
    exact Bool.false_ne_true

namespace Digest

variable [Sha256]

/-- The digest of a byte string. The length of a slice is below `2 ^ 63`, so the
cast of the source keeps it; the remainder only makes the function total. -/
def forBytes (bytes : Bytes) : Digest where
  hash := hexEncode (Sha256.digest bytes).toList
  sizeBytes := bytes.length % 2 ^ 63
  hash_valid := hexEncode_valid (Sha256.digest bytes)
  size_le := Nat.le_pred_of_lt (Nat.mod_lt _ (by decide))

theorem forBytes_hash (bytes : Bytes) :
    (forBytes bytes).hash = hexEncode (Sha256.digest bytes).toList := rfl

theorem forBytes_sizeBytes (bytes : Bytes) (h : bytes.length ≤ i64Max) :
    (forBytes bytes).sizeBytes = bytes.length :=
  Nat.mod_eq_of_lt (Nat.lt_of_le_of_lt h (by decide))

/-- The digest of these bytes: their SHA-256 and their length. -/
def Names (d : Digest) (bytes : Bytes) : Prop :=
  hexEncode (Sha256.digest bytes).toList = d.hash ∧ bytes.length = d.sizeBytes

theorem forBytes_eq_iff_names (d : Digest) (bytes : Bytes) (h : bytes.length ≤ i64Max) :
    forBytes bytes = d ↔ d.Names bytes := by
  rw [eq_iff, forBytes_hash, forBytes_sizeBytes bytes h]
  exact Iff.rfl

/-- Compare a byte string with the digest that names it. -/
def verifyBytes (d : Digest) (bytes : Bytes) : Except DigestError Unit :=
  let actual := forBytes bytes
  if actual.sizeBytes ≠ d.sizeBytes then
    .error (.sizeMismatch d.sizeBytes actual.sizeBytes)
  else if actual.hash ≠ d.hash then .error (.hashMismatch d.hash actual.hash)
  else .ok ()

theorem verifyBytes_eq_ok_iff (d : Digest) (bytes : Bytes) :
    d.verifyBytes bytes = .ok () ↔ forBytes bytes = d := by
  unfold verifyBytes
  rw [eq_iff]
  by_cases hsize : (forBytes bytes).sizeBytes = d.sizeBytes
  · by_cases hhash : (forBytes bytes).hash = d.hash
    · simp [hsize, hhash]
    · simp [hsize, hhash]
  · simp [hsize]

namespace Sample

def contentHash : Vector UInt8 32 :=
  #v[143, 67, 67, 70, 100, 143, 107, 150, 223, 137, 221, 169, 1, 197, 23, 107, 16, 166, 216,
    57, 97, 221, 60, 26, 200, 139, 89, 178, 220, 50, 122, 164]

@[reducible] def sha256 : Sha256 where
  digest bytes := if bytes = [104, 105] then contentHash else Vector.replicate 32 0

def contentDigest : Digest where
  hash := "8f434346648f6b96df89dda901c5176b10a6d83961dd3c1ac88b59b2dc327aa4"
  sizeBytes := 2
  hash_valid := ⟨by decide, by decide⟩
  size_le := by decide

end Sample

end Digest

end RemoteFs
