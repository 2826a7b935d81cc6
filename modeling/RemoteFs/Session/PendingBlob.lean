import RemoteFs.Basic.Disk
import RemoteFs.Digest.Text
import RemoteFs.Reapi
import RemoteFs.Session.Error

/-!
# Pending blobs

A blob on its way into the cache is written to a temporary file while a running
hash and a counter follow along. `PendingBlob.Consistent` says that the three stay
in step and within the expected size, over any sequence of writes of which the
file accepts a prefix or nothing. A consistent blob passes `verify` exactly when
the file holds the bytes the expected digest names.
-/

namespace RemoteFs

namespace Session

/-- Private sequential writer that hashes and bounds one pending cache object. The
hasher is kept as the bytes it was fed. -/
structure PendingBlob where
  expected : Digest
  destination : PathBuf
  temporary : Bytes
  hasher : Bytes
  written : ℕ

inductive WriteError where
  | invalidData (text : String)
  | file (source : IoError)
  deriving DecidableEq, Repr

namespace PendingBlob

def new (expected : Digest) (destination : PathBuf) : PendingBlob where
  expected := expected
  destination := destination
  temporary := []
  hasher := []
  written := 0

/-- Write bytes, of which the temporary file accepts a count or none. -/
def write (pending : PendingBlob) (bytes : Bytes) (file : Except IoError ℕ) :
    Except WriteError ℕ × PendingBlob :=
  let expected := pending.expected.sizeBytes
  let additional := min bytes.length u64Max
  if min (pending.written + additional) u64Max > expected then
    (.error (.invalidData
      s!"blob {pending.expected.display} exceeds expected size {expected}"), pending)
  else
    match file with
    | .error source => (.error (.file source), pending)
    | .ok count =>
        (.ok count,
          { pending with
            temporary := pending.temporary ++ bytes.take count
            hasher := pending.hasher ++ bytes.take count
            written := pending.written + count })

/-- Compare what was written with the expected digest; absent when an `expect` of
the source would panic. -/
def verify [Sha256] (pending : PendingBlob) : Option (Except SessionError Unit) :=
  if pending.written ≤ i64Max then
    match Digest.new (hexEncode (Sha256.digest pending.hasher).toList)
        (Int64.ofNat pending.written) with
    | .error _ => none
    | .ok actual =>
        if actual = pending.expected then some (.ok ())
        else some (.error (internalError (s!"verify pending blob: expected " ++
          s!"{pending.expected.display}, got {actual.display}")))
  else none

/-- A call of `write`: its bytes, and how much of them the temporary file accepts when it is
asked. -/
structure WriteCall where
  bytes : Bytes
  file : Except IoError ℕ
  accepted_le : ∀ count, file = .ok count → count ≤ bytes.length

def writes (pending : PendingBlob) (calls : List WriteCall) : PendingBlob :=
  calls.foldl (fun pending call => (pending.write call.bytes call.file).2) pending

/-- The file, the hash and the counter agree, within the expected size. -/
structure Consistent (pending : PendingBlob) : Prop where
  hasher : pending.hasher = pending.temporary
  written : pending.written = pending.temporary.length
  written_le : pending.written ≤ pending.expected.sizeBytes

theorem new_consistent (expected : Digest) (destination : PathBuf) :
    (new expected destination).Consistent :=
  ⟨rfl, rfl, Nat.zero_le _⟩

/-- A write changes nothing, or the file accepted a prefix that fits. -/
theorem write_cases (pending : PendingBlob) (bytes : Bytes) (file : Except IoError ℕ) :
    (∃ e, pending.write bytes file = (.error e, pending)) ∨
      ∃ count, file = .ok count ∧
        pending.written + bytes.length ≤ pending.expected.sizeBytes ∧
        pending.write bytes file = (.ok count,
          { pending with
            temporary := pending.temporary ++ bytes.take count
            hasher := pending.hasher ++ bytes.take count
            written := pending.written + count }) := by
  unfold write
  dsimp only
  split
  · exact .inl ⟨_, rfl⟩
  · next hsize =>
      cases file with
      | error source => exact .inl ⟨_, rfl⟩
      | ok count =>
          have hexpected : pending.expected.sizeBytes < u64Max :=
            Nat.lt_of_le_of_lt pending.expected.size_le (by decide)
          exact .inr ⟨count, rfl, by omega, rfl⟩

theorem write_ne_error {pending : PendingBlob} {bytes : Bytes} {count : ℕ}
    (h : pending.written + bytes.length ≤ pending.expected.sizeBytes) (e : WriteError) :
    pending.write bytes (.ok count) ≠ (.error e, pending) := by
  have hexpected : pending.expected.sizeBytes < u64Max :=
    Nat.lt_of_le_of_lt pending.expected.size_le (by decide)
  have hfits : ¬ min (pending.written + min bytes.length u64Max) u64Max >
      pending.expected.sizeBytes := by
    omega
  unfold write
  dsimp only
  rw [if_neg hfits]
  exact fun heq => nomatch (Prod.mk.inj heq).1

theorem Consistent.write {pending : PendingBlob} (h : pending.Consistent) (bytes : Bytes)
    (file : Except IoError ℕ) (hfile : ∀ count, file = .ok count → count ≤ bytes.length) :
    (pending.write bytes file).2.Consistent := by
  obtain ⟨e, hwrite⟩ | ⟨count, hok, hfits, hwrite⟩ := pending.write_cases bytes file
  · rw [hwrite]
    exact h
  · have hcount := hfile count hok
    rw [hwrite]
    refine ⟨by rw [h.hasher], ?_, ?_⟩
    · rw [List.length_append, List.length_take, Nat.min_eq_left hcount, h.written]
    · dsimp only
      omega

theorem write_kept (pending : PendingBlob) (bytes : Bytes) (file : Except IoError ℕ) :
    (pending.write bytes file).2.expected = pending.expected ∧
      (pending.write bytes file).2.destination = pending.destination := by
  obtain ⟨e, hwrite⟩ | ⟨count, -, -, hwrite⟩ := pending.write_cases bytes file
  · rw [hwrite]
    exact ⟨rfl, rfl⟩
  · rw [hwrite]
    exact ⟨rfl, rfl⟩

def exceedsExpected (expected : Digest) : WriteError :=
  .invalidData s!"blob {expected.display} exceeds expected size {expected.sizeBytes}"

/-- A write beyond the expected size is refused before any byte is accepted. -/
theorem write_of_exceeds {pending : PendingBlob} {bytes : Bytes}
    (h : pending.expected.sizeBytes < pending.written + bytes.length)
    (file : Except IoError ℕ) :
    pending.write bytes file = (.error (exceedsExpected pending.expected), pending) := by
  have hexpected : pending.expected.sizeBytes < u64Max :=
    Nat.lt_of_le_of_lt pending.expected.size_le (by decide)
  have hexceeds : min (pending.written + min bytes.length u64Max) u64Max >
      pending.expected.sizeBytes := by
    omega
  unfold write
  dsimp only
  exact if_pos hexceeds

theorem Consistent.writes {pending : PendingBlob} (h : pending.Consistent)
    (calls : List WriteCall) :
    (pending.writes calls).Consistent ∧ (pending.writes calls).expected = pending.expected := by
  induction calls generalizing pending with
  | nil => exact ⟨h, rfl⟩
  | cons call calls ih =>
      obtain ⟨hconsistent, hexpected⟩ := ih (h.write call.bytes call.file call.accepted_le)
      exact ⟨hconsistent, hexpected.trans (write_kept pending call.bytes call.file).1⟩

section Verify

variable [Sha256]

/-- Verifying a consistent blob does not panic, and succeeds exactly when the file
holds the expected bytes. -/
theorem Consistent.verify_cases {pending : PendingBlob} (h : pending.Consistent) :
    (pending.verify = some (.ok ()) ∧ pending.expected.Names pending.temporary) ∨
      ∃ e, pending.verify = some (.error e) ∧
        ¬ pending.expected.Names pending.temporary := by
  have hle : pending.written ≤ i64Max := h.written_le.trans pending.expected.size_le
  rw [verify, if_pos hle, Digest.new_ofNat _ _ hle]
  dsimp only
  split
  · next heq =>
      refine .inl ⟨rfl, ?_, ?_⟩
      · rw [← heq, h.hasher]
      · exact h.written.symm.trans (congrArg Digest.sizeBytes heq)
  · next hne =>
      refine .inr ⟨_, rfl, ?_⟩
      rintro ⟨hhash, hsize⟩
      refine hne (Digest.ext ?_ ?_)
      · rw [h.hasher]
        exact hhash
      · exact h.written.trans hsize

/-- What holds of a pending blob at every point: the counter and the hasher are those of the
file, within the expected size; a write that would exceed it is refused; and `verify` does not
panic, and accepts exactly the expected content. -/
theorem writes_bookkeeping (expected : Digest) (destination : PathBuf)
    (calls : List WriteCall) :
    let pending := (new expected destination).writes calls
    pending.expected = expected ∧ pending.written = pending.temporary.length ∧
      pending.written ≤ expected.sizeBytes ∧ pending.hasher = pending.temporary ∧
      (∀ bytes file, expected.sizeBytes < pending.written + bytes.length →
        pending.write bytes file = (.error (exceedsExpected expected), pending)) ∧
      pending.verify ≠ none ∧
      (pending.verify = some (.ok ()) ↔ expected.Names pending.temporary) := by
  intro pending
  obtain ⟨hconsistent, hexpected⟩ := (new_consistent expected destination).writes calls
  have hexpected' : pending.expected = expected := hexpected
  have hverify := hconsistent.verify_cases
  rw [hexpected] at hverify
  refine ⟨hexpected', hconsistent.written, hexpected' ▸ hconsistent.written_le,
    hconsistent.hasher, ?_, ?_, ?_⟩
  · intro bytes file hexceeds
    rw [write_of_exceeds (hexpected'.symm ▸ hexceeds), hexpected']
  · obtain ⟨hok, -⟩ | ⟨e, herror, -⟩ := hverify
    · exact hok ▸ Option.some_ne_none _
    · exact herror ▸ Option.some_ne_none _
  · obtain ⟨hok, hnames⟩ | ⟨e, herror, hnames⟩ := hverify
    · exact iff_of_true hok hnames
    · refine iff_of_false ?_ hnames
      rw [herror]
      intro h
      cases h

end Verify

namespace Sample

/-- Writes of the content `hi`: the file accepts one of two bytes, then fails, then is not asked
as the bytes are one too many, and at last accepts the second byte. -/
def calls : List WriteCall :=
  [⟨[104, 105], .ok 1, by rintro _ ⟨⟩; decide⟩,
    ⟨[105], .error "No space left on device", by rintro _ ⟨⟩⟩,
    ⟨[105, 0], .ok 2, by rintro _ ⟨⟩; decide⟩,
    ⟨[105], .ok 1, by rintro _ ⟨⟩; decide⟩]

end Sample

/-- The theorem on these writes: the short, the failed and the oversize one leave one byte, which
is not the content; the last one completes it. -/
theorem writes_bookkeeping_sample :
    let _ : Sha256 := Digest.Sample.sha256
    let pending := (new Digest.Sample.contentDigest [.utf8 "content"]).writes
    (pending (Sample.calls.take 3)).temporary = [104] ∧
      (pending (Sample.calls.take 3)).written = 1 ∧
      (pending (Sample.calls.take 3)).verify ≠ some (.ok ()) ∧
      (pending Sample.calls).temporary = [104, 105] ∧
      (pending Sample.calls).written = 2 ∧
      (pending Sample.calls).verify = some (.ok ()) := by
  let _ : Sha256 := Digest.Sample.sha256
  obtain ⟨-, hwritten, -, -, -, -, hverify⟩ := writes_bookkeeping
    Digest.Sample.contentDigest [.utf8 "content"] (Sample.calls.take 3)
  obtain ⟨-, hwritten', -, -, -, -, hverify'⟩ := writes_bookkeeping
    Digest.Sample.contentDigest [.utf8 "content"] Sample.calls
  refine ⟨rfl, hwritten, fun h => ?_, rfl, hwritten', hverify'.mpr ⟨by decide, rfl⟩⟩
  exact absurd (hverify.mp h).2 (by decide)

end PendingBlob

end Session

end RemoteFs
