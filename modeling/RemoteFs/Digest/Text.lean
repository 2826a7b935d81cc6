import RemoteFs.Digest.Basic
import Mathlib.Tactic.Linarith

/-!
# The text form of a digest

A digest is written `sha256:<hash>/<size>`. `Digest.fromStr` follows the parser
of the program check by check, on the characters of the text. Printing a digest
and parsing the text gives the digest back, which is what lets a digest pass
through a text column of the session database.
-/

namespace RemoteFs

def stripPrefix : List Char → List Char → Option (List Char)
  | [], text => some text
  | _ :: _, [] => none
  | p :: ps, c :: cs => if p = c then stripPrefix ps cs else none

def splitOnce (separator : Char) : List Char → Option (List Char × List Char)
  | [] => none
  | c :: cs =>
      if c = separator then some ([], cs)
      else (splitOnce separator cs).map fun parts => (c :: parts.1, parts.2)

theorem stripPrefix_append (start text : List Char) :
    stripPrefix start (start ++ text) = some text := by
  induction start with
  | nil => rfl
  | cons c cs ih => simp [stripPrefix, ih]

theorem splitOnce_append (separator : Char) (left right : List Char)
    (h : separator ∉ left) :
    splitOnce separator (left ++ separator :: right) = some (left, right) := by
  induction left with
  | nil => simp [splitOnce]
  | cons c cs ih =>
      rw [List.mem_cons, not_or] at h
      have hc : c ≠ separator := fun heq => h.1 heq.symm
      simp [splitOnce, hc, ih h.2]

/-- The decimal value of a non-empty text of digits, when it fits an `i64`. -/
def parseI64 (digits : List Char) : Option ℕ :=
  let value := Nat.ofDigitChars 10 digits 0
  if value ≤ i64Max then some value else none

namespace Digest

def display (d : Digest) : String :=
  "sha256:" ++ d.hash ++ "/" ++ toString d.sizeBytes

def fromStr (s : String) : Except DigestError Digest :=
  match stripPrefix "sha256:".toList s.toList with
  | none => .error .unsupportedHash
  | some stripped =>
      match splitOnce '/' stripped with
      | none => .error .invalidFormat
      | some (hashPart, sizePart) =>
          if hlen : (String.ofList hashPart).utf8ByteSize ≠ 64 then .error .invalidHash
          else if hchars : (String.ofList hashPart).toList.any invalidHashChar = true then
            .error .invalidHash
          else if sizePart.isEmpty then .error .invalidFormat
          else if !sizePart.all isAsciiDigit then
            .error (.invalidSize (String.ofList sizePart))
          else
            match hsize : parseI64 sizePart with
            | none => .error (.invalidSize (String.ofList sizePart))
            | some sizeBytes =>
                .ok
                  { hash := String.ofList hashPart
                    sizeBytes := sizeBytes
                    hash_valid := ⟨not_not.mp hlen, Bool.not_eq_true _ ▸ hchars⟩
                    size_le := by
                      simp only [parseI64] at hsize
                      split at hsize
                      · simp only [Option.some.injEq] at hsize
                        omega
                      · cases hsize }

theorem toList_display (d : Digest) :
    d.display.toList =
      "sha256:".toList ++ (d.hash.toList ++ '/' :: Nat.toDigits 10 d.sizeBytes) := by
  simp [display]

theorem slash_notMem_hash (d : Digest) : '/' ∉ d.hash.toList := by
  intro hmem
  have hchars := List.any_eq_false.mp d.hash_valid.chars '/' hmem
  exact hchars (by decide)

theorem isAsciiDigit_of_isDigit (c : Char) (h : c.isDigit = true) : isAsciiDigit c = true := by
  have hbounds : '0'.val ≤ c.val ∧ c.val ≤ '9'.val := by
    simpa [Char.isDigit] using h
  simpa [isAsciiDigit, Char.le_def] using hbounds

theorem all_isAsciiDigit_toDigits (n : ℕ) : (Nat.toDigits 10 n).all isAsciiDigit = true := by
  rw [List.all_eq_true]
  intro c hc
  exact isAsciiDigit_of_isDigit c (Nat.isDigit_of_mem_toDigits (by decide) (by decide) hc)

theorem parseI64_toDigits (n : ℕ) (h : n ≤ i64Max) :
    parseI64 (Nat.toDigits 10 n) = some n := by
  simp [parseI64, Nat.ofDigitChars_ten_toDigits, h]

/-- Parsing the text of a digest gives the digest back. -/
theorem fromStr_display (d : Digest) : fromStr d.display = .ok d := by
  have hstrip := stripPrefix_append "sha256:".toList
    (d.hash.toList ++ '/' :: Nat.toDigits 10 d.sizeBytes)
  have hsplit := splitOnce_append '/' d.hash.toList (Nat.toDigits 10 d.sizeBytes)
    d.slash_notMem_hash
  have hparse := parseI64_toDigits d.sizeBytes d.size_le
  have hnonempty : (Nat.toDigits 10 d.sizeBytes).isEmpty = false := by
    simp
  unfold fromStr
  rw [toList_display, hstrip]
  simp only [hsplit, String.ofList_toList]
  rw [dif_neg (not_not.mpr d.hash_valid.length),
    dif_neg (Bool.not_eq_true _ ▸ d.hash_valid.chars), hnonempty,
    all_isAsciiDigit_toDigits]
  simp only [Bool.false_eq_true, if_false, Bool.not_true]
  split
  · next hnone => simp [hparse] at hnone
  · next size hsome =>
      rw [hparse, Option.some.injEq] at hsome
      subst hsome
      rfl

end Digest

end RemoteFs
