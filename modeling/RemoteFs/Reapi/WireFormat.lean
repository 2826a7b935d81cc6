import Mathlib.Data.Countable.Basic
import Mathlib.Logic.Equiv.List
import Mathlib.Tactic.DeriveCountable
import RemoteFs.Library.Keyed
import RemoteFs.Reapi

/-!
# Wire formats with prescribed bytes

The messages are countable, so the bytes of some messages can be prescribed and
every other message still gets bytes of its own. `Prost.prescribed` is such a
wire format. It makes the assumption `Prost.DecodeInvertsEncode` available
together with the bytes protobuf really gives the prescribed messages.
-/

namespace RemoteFs

namespace Reapi

instance countableChar : Countable Char :=
  (Function.LeftInverse.injective fun c => Char.ofNat_toNat c).countable

instance countableString : Countable String :=
  (Function.LeftInverse.injective fun s => String.ofList_toList (s := s)).countable

instance countableInt64 : Countable Int64 :=
  (Function.LeftInverse.injective fun n => Int64.ofInt_toInt n).countable

instance countableInt32 : Countable Int32 :=
  (Function.LeftInverse.injective fun n => Int32.ofInt_toInt n).countable

instance countableUInt32 : Countable UInt32 :=
  (Function.LeftInverse.injective fun n => UInt32.ofNat_toNat (x := n)).countable

deriving instance Countable for Digest, Timestamp, NodeProperty, NodeProperties, FileNode,
  DirectoryNode, SymlinkNode, Directory

end Reapi

namespace Prost

noncomputable def number (directory : Reapi.Directory) : ℕ :=
  (exists_injective_nat Reapi.Directory).choose directory

theorem number_injective : Function.Injective number :=
  (exists_injective_nat Reapi.Directory).choose_spec

/-- The bytes of a message: the prescribed ones for a sample, and for any other message its
number in unary after a byte no message starts with. -/
noncomputable def prescribedBytes (samples : List (Reapi.Directory × Bytes))
    (directory : Reapi.Directory) : Bytes :=
  match samples.lookup directory with
  | some bytes => bytes
  | none => 255 :: List.replicate (number directory) 0

/-- What a prescription of bytes must meet: different messages get different bytes, which do
not start like those of the other messages. -/
structure Prescribes (samples : List (Reapi.Directory × Bytes)) : Prop where
  bytes_nodup : (samples.map Prod.snd).Nodup
  head_ne : ∀ sample ∈ samples, sample.2.head? ≠ some 255

theorem Prescribes.prescribedBytes_injective {samples : List (Reapi.Directory × Bytes)}
    (h : Prescribes samples) : Function.Injective (prescribedBytes samples) := by
  have hother : ∀ directory bytes, samples.lookup directory = some bytes → ∀ n : ℕ,
      bytes ≠ 255 :: List.replicate n 0 := by
    rintro directory bytes hlookup n rfl
    exact h.head_ne _ (Keyed.mem_of_lookup_eq_some hlookup) rfl
  intro left right heq
  unfold prescribedBytes at heq
  split at heq
  · next bytes hleft =>
      split at heq
      · next bytes' hright =>
          subst heq
          have hsame := List.inj_on_of_nodup_map h.bytes_nodup
            (Keyed.mem_of_lookup_eq_some hleft) (Keyed.mem_of_lookup_eq_some hright) rfl
          exact congrArg Prod.fst hsame
      · exact absurd heq (hother _ _ hleft _)
  · split at heq
    · next bytes hright => exact absurd heq.symm (hother _ _ hright _)
    · rw [List.cons.injEq] at heq
      refine number_injective ?_
      simpa using congrArg List.length heq.2

open Classical in
/-- The wire format that gives the samples the prescribed bytes. -/
@[reducible] noncomputable def prescribed (samples : List (Reapi.Directory × Bytes)) : Prost where
  encodeToVec := prescribedBytes samples
  decode b :=
    if h : ∃ directory, prescribedBytes samples directory = b then .ok h.choose
    else .error "failed to decode Protobuf message"

theorem prescribed_encodeToVec {samples : List (Reapi.Directory × Bytes)}
    {directory : Reapi.Directory} {bytes : Bytes}
    (h : samples.lookup directory = some bytes) :
    (prescribed samples).encodeToVec directory = bytes := by
  change prescribedBytes samples directory = bytes
  rw [prescribedBytes, h]

theorem Prescribes.decodeInvertsEncode {samples : List (Reapi.Directory × Bytes)}
    (hsamples : Prescribes samples) : @DecodeInvertsEncode (prescribed samples) := by
  intro directory
  have h : ∃ other, prescribedBytes samples other = prescribedBytes samples directory :=
    ⟨directory, rfl⟩
  have hchoose : h.choose = directory := hsamples.prescribedBytes_injective h.choose_spec
  exact (dif_pos h).trans (congrArg Except.ok hchoose)

end Prost

end RemoteFs
