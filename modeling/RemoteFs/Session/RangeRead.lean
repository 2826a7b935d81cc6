import Mathlib.Data.List.TakeDrop
import RemoteFs.Session.Cache

/-!
# Positioned reads that come short

A range of a file is read with one positioned read, and what it does not deliver is cut
off. So the range is complete exactly when that read fills its buffer.
-/

namespace RemoteFs

namespace Session

namespace Cache

/-- A file that can be opened and inspected, and whose positioned reads return `count`. -/
def FileReads.short (count : ℕ → ℕ) : FileReads where
  openError := none
  inspectError := none
  readAt := .ok count

def rangeReadSize (bytes : Bytes) (offset size : ℕ) : ℕ :=
  min (bytes.length - offset) size

/-- The bytes of a range, up to the end of the file. -/
def rangeBytes (bytes : Bytes) (offset size : ℕ) : Bytes :=
  bytes.extract (min offset bytes.length) (min (offset + size) bytes.length)

theorem rangeBytes_eq (bytes : Bytes) (offset size : ℕ) :
    rangeBytes bytes offset size = (bytes.drop offset).take (rangeReadSize bytes offset size) := by
  rw [rangeBytes, rangeReadSize, List.extract_eq_take_drop]
  rcases Nat.le_total offset bytes.length with hle | hle
  · rw [Nat.min_eq_left hle]
    congr 1
    omega
  · rw [Nat.min_eq_right hle, List.drop_of_length_le hle, List.drop_length, List.take_nil,
      List.take_nil]

theorem length_rangeBytes (bytes : Bytes) (offset size : ℕ) :
    (rangeBytes bytes offset size).length = rangeReadSize bytes offset size := by
  rw [rangeBytes_eq, List.length_take, List.length_drop, rangeReadSize]
  omega

theorem readFileRange_short {files : PathBuf → Option Bytes} {path : PathBuf} {bytes : Bytes}
    (hfile : files path = some bytes) (offset size : ℕ) (count : ℕ → ℕ) :
    readFileRange files path offset size (.short count) =
      .ok ((rangeBytes bytes offset size).take (count (rangeReadSize bytes offset size))) := by
  rw [readFileRange, hfile, rangeBytes_eq]
  rfl

/-- A range read is complete exactly when its positioned read fills the buffer. -/
theorem readFileRange_complete_iff {files : PathBuf → Option Bytes} {path : PathBuf}
    {bytes : Bytes} (hfile : files path = some bytes) {count : ℕ → ℕ} (hlegal : LegalCount count)
    (offset size : ℕ) :
    readFileRange files path offset size (.short count) =
        .ok (rangeBytes bytes offset size) ↔
      count (rangeReadSize bytes offset size) = rangeReadSize bytes offset size := by
  rw [readFileRange_short hfile, Except.ok.injEq, List.take_eq_self_iff, length_rangeBytes]
  exact ⟨fun hle => Nat.le_antisymm (hlegal _).1 hle, Eq.ge⟩

namespace Sample

/-- A positioned read that delivers one byte at a time. -/
def oneByte (n : ℕ) : ℕ := min n 1

theorem oneByte_legal : LegalCount oneByte := by
  intro n
  unfold oneByte
  omega

end Sample

/-- A reply of one byte where four are there, up to the end of the file. -/
theorem short_read_cuts_reply :
    LegalCount Sample.oneByte ∧
    readFileRange (fun _ => some [1, 2, 3, 4]) [] 0 4 (.short Sample.oneByte) = .ok [1] ∧
    readFileRange (fun _ => some [1, 2, 3, 4]) [] 0 4 (.short Sample.oneByte) ≠
      .ok (rangeBytes [1, 2, 3, 4] 0 4) := by
  refine ⟨Sample.oneByte_legal, rfl, ?_⟩
  intro h
  cases h

/-- The theorem at a range that one short read fills. -/
theorem readFileRange_complete_iff_sample :
    readFileRange (fun _ => some [1, 2, 3, 4]) [] 3 2 (.short Sample.oneByte) =
        .ok (rangeBytes [1, 2, 3, 4] 3 2) ↔
      Sample.oneByte (rangeReadSize [1, 2, 3, 4] 3 2) = rangeReadSize [1, 2, 3, 4] 3 2 :=
  readFileRange_complete_iff rfl Sample.oneByte_legal 3 2

end Cache

end Session

end RemoteFs
