import RemoteFs.Digest.Basic

/-!
# Remote Execution messages

The protobuf messages a directory blob is made of, as prost generates them:
repeated fields are lists and message fields are optional. The wire format is a
parameter. `Prost` is an encoder and a decoder for `Directory`, and
`Prost.DecodeInvertsEncode` is the one fact about the pair that the round trip
results rely on.
-/

namespace RemoteFs

namespace Reapi

structure Digest where
  hash : String
  sizeBytes : Int64
  deriving DecidableEq

structure Timestamp where
  seconds : Int64
  nanos : Int32
  deriving DecidableEq

structure NodeProperty where
  name : String
  value : String
  deriving DecidableEq

structure NodeProperties where
  properties : List NodeProperty
  mtime : Option Timestamp
  unixMode : Option UInt32
  deriving DecidableEq

structure FileNode where
  name : String
  digest : Option Digest
  isExecutable : Bool
  nodeProperties : Option NodeProperties
  deriving DecidableEq

structure DirectoryNode where
  name : String
  digest : Option Digest
  nodeProperties : Option NodeProperties
  deriving DecidableEq

structure SymlinkNode where
  name : String
  target : String
  nodeProperties : Option NodeProperties
  deriving DecidableEq

structure Directory where
  files : List FileNode
  directories : List DirectoryNode
  symlinks : List SymlinkNode
  nodeProperties : Option NodeProperties
  deriving DecidableEq

end Reapi

/-- The wire format of a `Directory`; a decode failure is its message. -/
class Prost where
  encodeToVec : Reapi.Directory → Bytes
  decode : Bytes → Except String Reapi.Directory

def Prost.DecodeInvertsEncode [Prost] : Prop :=
  ∀ directory, Prost.decode (Prost.encodeToVec directory) = .ok directory

namespace Digest

def toReapi (d : Digest) : Reapi.Digest where
  hash := d.hash
  sizeBytes := Int64.ofNat d.sizeBytes

def fromReapi (digest : Reapi.Digest) : Except DigestError Digest :=
  new digest.hash digest.sizeBytes

theorem toNatClampNeg_ofNat (n : ℕ) (h : n ≤ i64Max) :
    (Int64.ofNat n).toInt = n ∧ (Int64.ofNat n).toNatClampNeg = n := by
  have hlt : n < 2 ^ 63 := Nat.lt_of_le_of_lt h (by decide)
  have hint : (Int64.ofNat n).toInt = n := Int64.toInt_ofNat_of_lt hlt
  refine ⟨hint, ?_⟩
  rw [Int64.toNatClampNeg, hint, Int.toNat_natCast]

/-- A digest made of a count of bytes has the count modulo `2 ^ 63`. -/
theorem new_ofNat_eq_ok (hash : String) (n : ℕ) (d : Digest)
    (h : new hash (Int64.ofNat n) = .ok d) : d.hash = hash ∧ d.sizeBytes = n % 2 ^ 63 := by
  unfold new at h
  split at h
  · cases h
  · split at h
    · cases h
    · split at h
      · cases h
      · next hneg =>
          cases h
          refine ⟨rfl, ?_⟩
          have hsize : Int64.size = 18446744073709551616 := rfl
          rw [Int64.lt_iff_toInt_lt, Int64.toInt_zero, Int64.toInt_ofNat', Int.bmod_def,
            hsize] at hneg
          dsimp only
          rw [Int64.toNatClampNeg, Int64.toInt_ofNat', Int.bmod_def, hsize]
          split <;> omega

@[simp] theorem fromReapi_toReapi (d : Digest) : fromReapi d.toReapi = .ok d := by
  obtain ⟨hint, hnat⟩ := toNatClampNeg_ofNat d.sizeBytes d.size_le
  have hneg : ¬ Int64.ofNat d.sizeBytes < 0 := by
    rw [Int64.lt_iff_toInt_lt, hint]
    simp
  unfold fromReapi new toReapi
  rw [dif_neg (not_not.mpr d.hash_valid.length),
    dif_neg (Bool.not_eq_true _ ▸ d.hash_valid.chars), if_neg hneg]
  simp only [hnat]

/-- The checked constructor accepts the output of a hash with a size that fits. -/
theorem new_ofNat (output : Vector UInt8 32) (n : ℕ) (h : n ≤ i64Max) :
    new (hexEncode output.toList) (Int64.ofNat n) =
      .ok ⟨hexEncode output.toList, n, hexEncode_valid output, h⟩ :=
  fromReapi_toReapi ⟨hexEncode output.toList, n, hexEncode_valid output, h⟩

theorem toReapi_injective : Function.Injective toReapi := by
  intro d e h
  have hd := d.fromReapi_toReapi
  rw [h, e.fromReapi_toReapi] at hd
  exact (Except.ok.inj hd).symm

end Digest

end RemoteFs
