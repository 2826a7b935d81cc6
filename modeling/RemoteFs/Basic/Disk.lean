import RemoteFs.Basic.Text

/-!
# Reading local files

A file is read through a buffer, one system call after another. Opening it may
fail and so may every read; an empty read is the end of the file.
-/

namespace RemoteFs

abbrev IoError := String

/-- Reading a file: opening it fails, or the successive reads return these
results, an empty read or the end of the list being the end of the file. -/
abbrev Reads := Except IoError (List (Except IoError Bytes))

/-- The local files, read through a buffer of the given size. -/
abbrev Disk := ℕ → PathBuf → Reads

/-- A count a read may return when `n` bytes are there for a buffer of `n` bytes: at most
`n`, and none only when there is nothing to read. -/
def LegalCount (count : ℕ → ℕ) : Prop :=
  ∀ n, count n ≤ n ∧ (0 < n → 0 < count n)

theorem LegalCount.zero {count : ℕ → ℕ} (h : LegalCount count) : count 0 = 0 :=
  Nat.le_zero.mp (h 0).1

end RemoteFs
