import Mathlib.Algebra.BigOperators.Group.List.Basic
import Mathlib.Algebra.GroupWithZero.Nat

/-!
# The wire format of protocol buffers

A message is the sequence of its fields. A field starts with a tag, which holds its number
and its wire type; a number follows as a varint of seven bits a byte, and a string, a byte
string or a message inside follows with its length before it. A number that is zero and a
string that is empty are left out.

The lemmas compute the length of what is written, for fields with a number below 16.
-/

namespace Protobuf

/-- The base 128 varint of a number, least significant digits first. -/
def varint (n : ℕ) : List UInt8 :=
  if n < 128 then [UInt8.ofNat n] else UInt8.ofNat (n % 128 + 128) :: varint (n / 128)
termination_by n
decreasing_by omega

def tag (field wireType : ℕ) : List UInt8 :=
  varint (field * 8 + wireType)

/-- A field that holds a message, which is written also when it is empty. -/
def messageField (field : ℕ) (payload : List UInt8) : List UInt8 :=
  tag field 2 ++ varint payload.length ++ payload

def bytesField (field : ℕ) (data : List UInt8) : List UInt8 :=
  if data = [] then [] else tag field 2 ++ varint data.length ++ data

def varintField (field n : ℕ) : List UInt8 :=
  if n = 0 then [] else tag field 0 ++ varint n

def varintLength (n : ℕ) : ℕ :=
  (varint n).length

theorem varintLength_of_lt (n : ℕ) (h : n < 128) : varintLength n = 1 := by
  rw [varintLength, varint, if_pos h]
  rfl

theorem varintLength_of_le (n : ℕ) (h : 128 ≤ n) :
    varintLength n = varintLength (n / 128) + 1 := by
  rw [varintLength, varint, if_neg (by omega)]
  rfl

theorem varintLength_le (k n : ℕ) (h : n < 128 ^ (k + 1)) : varintLength n ≤ k + 1 := by
  induction k generalizing n with
  | zero => exact Nat.le_of_eq (varintLength_of_lt n h)
  | succ k ih =>
      by_cases hn : n < 128
      · rw [varintLength_of_lt n hn]
        omega
      · rw [varintLength_of_le n (by omega)]
        apply Nat.succ_le_succ
        apply ih
        rw [Nat.pow_succ] at h
        exact Nat.div_lt_of_lt_mul (by rw [Nat.mul_comm]; exact h)

theorem le_varintLength (k n : ℕ) (h : 128 ^ k ≤ n) : k + 1 ≤ varintLength n := by
  induction k generalizing n with
  | zero =>
      by_cases hn : n < 128
      · exact Nat.le_of_eq (varintLength_of_lt n hn).symm
      · rw [varintLength_of_le n (by omega)]
        omega
  | succ k ih =>
      have hpos : 128 ≤ 128 ^ (k + 1) := Nat.le_self_pow (by omega) 128
      rw [varintLength_of_le n (by omega)]
      apply Nat.succ_le_succ
      apply ih
      rw [Nat.pow_succ] at h
      exact (Nat.le_div_iff_mul_le (by decide)).mpr h

theorem length_tag (field wireType : ℕ) (hfield : field < 16) (hwire : wireType < 8) :
    (tag field wireType).length = 1 :=
  varintLength_of_lt _ (by omega)

theorem length_messageField (field : ℕ) (payload : List UInt8) (hfield : field < 16) :
    (messageField field payload).length =
      1 + varintLength payload.length + payload.length := by
  rw [messageField, List.length_append, List.length_append,
    length_tag field 2 hfield (by decide), varintLength]

theorem length_bytesField (field : ℕ) (data : List UInt8) (hfield : field < 16) :
    (bytesField field data).length =
      if data.length = 0 then 0 else 1 + varintLength data.length + data.length := by
  rw [bytesField]
  by_cases hempty : data = []
  · rw [if_pos hempty, hempty]
    rfl
  · have hlength : ¬ data.length = 0 := by rwa [List.length_eq_zero_iff]
    rw [if_neg hempty, if_neg hlength]
    exact length_messageField field data hfield

theorem length_varintField (field n : ℕ) (hfield : field < 16) :
    (varintField field n).length = if n = 0 then 0 else 1 + varintLength n := by
  rw [varintField]
  split
  · rfl
  · rw [List.length_append, length_tag field 0 hfield (by decide), varintLength]

/-- The length of a list of messages in one repeated field. -/
theorem length_flatMap_messageField (field : ℕ) (payloads : List (List UInt8))
    (hfield : field < 16) :
    (payloads.flatMap (messageField field)).length =
      (payloads.map fun payload => 1 + varintLength payload.length + payload.length).sum := by
  rw [List.length_flatMap]
  simp only [length_messageField field _ hfield]

end Protobuf
