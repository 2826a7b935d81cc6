import RemoteFs.Digest.Text

/-!
# The texts of a digest

The parser accepts exactly the texts `sha256:<hash>/<size>` whose hash has 64
characters from `0-9a-f` and whose size is a number in decimal digits that fits
an `i64`. A size may be written with leading zeros, so a digest has several
texts; the printer gives the one without them, which two texts of the same
digest therefore share.
-/

namespace RemoteFs

def LowercaseHex (c : Char) : Prop :=
  ('0' ≤ c ∧ c ≤ '9') ∨ ('a' ≤ c ∧ c ≤ 'f')

def DecimalDigit (c : Char) : Prop :=
  '0' ≤ c ∧ c ≤ '9'

/-- Remove the leading zeros that another digit follows. -/
def trimZeros : List Char → List Char
  | c :: d :: digits => if c = '0' then trimZeros (d :: digits) else c :: d :: digits
  | digits => digits

theorem digitChar_eq_ofNat : ∀ n < 10, n.digitChar = Char.ofNat (48 + n) := by
  decide

theorem digitChar_sub_of_decimalDigit (c : Char) (h : DecimalDigit c) :
    c.toNat - '0'.toNat < 10 ∧ (c.toNat - '0'.toNat).digitChar = c := by
  have hlow : 48 ≤ c.toNat := Char.le_def.mp h.1
  have hhigh : c.toNat ≤ 57 := Char.le_def.mp h.2
  have hzero : '0'.toNat = 48 := rfl
  have hlt : c.toNat - 48 < 10 := by omega
  rw [hzero, digitChar_eq_ofNat _ hlt, Nat.add_sub_cancel' hlow]
  exact ⟨hlt, Char.ofNat_toNat c⟩

theorem pos_of_ne_zeroChar (c : Char) (h : DecimalDigit c) (hzero : c ≠ '0') :
    0 < c.toNat - '0'.toNat := by
  apply Nat.pos_of_ne_zero
  intro hnone
  apply hzero
  rw [← (digitChar_sub_of_decimalDigit c h).2, hnone]
  rfl

theorem toDigits_ofDigitChars_of_pos (digits : List Char)
    (hdigits : ∀ d ∈ digits, DecimalDigit d) (value : ℕ) (hpos : 0 < value) :
    Nat.toDigits 10 (Nat.ofDigitChars 10 digits value) = Nat.toDigits 10 value ++ digits := by
  induction digits generalizing value with
  | nil => rw [Nat.ofDigitChars_nil, List.append_nil]
  | cons d digits ih =>
      obtain ⟨hd, hrest⟩ := List.forall_mem_cons.mp hdigits
      obtain ⟨hlt, hchar⟩ := digitChar_sub_of_decimalDigit d hd
      rw [Nat.ofDigitChars_cons, ih hrest _ (by omega),
        ← Nat.toDigits_append_toDigits (by decide) hpos hlt, Nat.toDigits_of_lt_base hlt,
        hchar, List.append_assoc, List.singleton_append]

/-- Printing the value of a number removes its redundant leading zeros. -/
theorem toDigits_ofDigitChars (digits : List Char) (hdigits : ∀ d ∈ digits, DecimalDigit d)
    (hne : digits ≠ []) :
    Nat.toDigits 10 (Nat.ofDigitChars 10 digits 0) = trimZeros digits := by
  induction digits with
  | nil => exact absurd rfl hne
  | cons c digits ih =>
      obtain ⟨hc, hrest⟩ := List.forall_mem_cons.mp hdigits
      by_cases hzero : c = '0'
      · subst hzero
        cases digits with
        | nil => rfl
        | cons d digits =>
            have hvalue : Nat.ofDigitChars 10 ('0' :: d :: digits) 0 =
                Nat.ofDigitChars 10 (d :: digits) 0 := by
              rw [Nat.ofDigitChars_cons, Nat.mul_zero, Nat.sub_self]
            rw [hvalue, ih hrest (List.cons_ne_nil d digits)]
            rfl
      · have hpos := pos_of_ne_zeroChar c hc hzero
        obtain ⟨hlt, hchar⟩ := digitChar_sub_of_decimalDigit c hc
        rw [Nat.ofDigitChars_cons, Nat.mul_zero, Nat.zero_add,
          toDigits_ofDigitChars_of_pos digits hrest _ hpos, Nat.toDigits_of_lt_base hlt, hchar,
          List.singleton_append]
        cases digits with
        | nil => rfl
        | cons d digits => exact (if_neg hzero).symm

theorem stripPrefix_eq_some (start text rest : List Char)
    (h : stripPrefix start text = some rest) : text = start ++ rest := by
  induction start generalizing text with
  | nil => exact Option.some.inj h
  | cons p start ih =>
      cases text with
      | nil => cases h
      | cons c text =>
          rw [stripPrefix] at h
          split at h
          · next hchar => rw [ih text h, hchar, List.cons_append]
          · cases h

theorem splitOnce_eq_some (separator : Char) (text left right : List Char)
    (h : splitOnce separator text = some (left, right)) :
    text = left ++ separator :: right := by
  induction text generalizing left with
  | nil => cases h
  | cons c text ih =>
      rw [splitOnce] at h
      split at h
      · next hchar =>
          cases h
          rw [hchar, List.nil_append]
      · cases hrest : splitOnce separator text with
        | none => simp [hrest] at h
        | some parts =>
            rw [hrest, Option.map_some, Option.some.injEq, Prod.mk.injEq] at h
            obtain ⟨rfl, rfl⟩ := h
            rw [List.cons_append, ← ih parts.1 hrest]

namespace Digest

/-- A hash and a size as they may stand in the text of a digest. -/
structure TextParts (hash size : List Char) : Prop where
  hash_length : hash.length = 64
  hash_chars : ∀ c ∈ hash, LowercaseHex c
  size_ne_nil : size ≠ []
  size_digits : ∀ c ∈ size, DecimalDigit c
  size_le : Nat.ofDigitChars 10 size 0 ≤ i64Max

def textOf (hash size : List Char) : List Char :=
  "sha256:".toList ++ (hash ++ '/' :: size)

theorem textOf_eq (hash size : List Char) :
    textOf hash size = "sha256:".toList ++ (hash ++ '/' :: size) := rfl

/-- The text with the redundant leading zeros of its size removed. -/
def canonicalText (s : String) : String :=
  match splitOnce '/' s.toList with
  | none => s
  | some (left, size) => String.ofList (left ++ '/' :: trimZeros size)

theorem invalidHashChar_eq_false_iff (c : Char) :
    invalidHashChar c = false ↔ LowercaseHex c := by
  simp only [LowercaseHex, invalidHashChar, isAsciiHexdigit, isAsciiAlphabetic,
    isAsciiLowercase, isAsciiDigit, Char.le_def, UInt32.le_iff_toNat_le,
    Bool.or_eq_false_iff, Bool.not_eq_eq_eq_not, Bool.not_false, Bool.and_eq_false_iff,
    decide_eq_true_eq, decide_eq_false_iff_not, Char.reduceVal, UInt32.reduceToNat]
  omega

theorem utf8Size_of_lowercaseHex (c : Char) (h : LowercaseHex c) : c.utf8Size = 1 := by
  have hval : c.val ≤ 127 := by
    simp only [LowercaseHex, Char.le_def, UInt32.le_iff_toNat_le, Char.reduceVal,
      UInt32.reduceToNat] at h ⊢
    omega
  exact if_pos hval

theorem validHash_ofList_iff (hash : List Char) :
    ValidHash (String.ofList hash) ↔ hash.length = 64 ∧ ∀ c ∈ hash, LowercaseHex c := by
  have hchars : (String.ofList hash).toList.any invalidHashChar = false ↔
      ∀ c ∈ hash, LowercaseHex c := by
    rw [String.toList_ofList, List.any_eq_false]
    apply forall₂_congr
    intro c _
    rw [Bool.not_eq_true, invalidHashChar_eq_false_iff]
  constructor
  · intro h
    have hhex := hchars.mp h.chars
    have hsize := utf8ByteSize_ofList_of_ascii hash fun c hc =>
      utf8Size_of_lowercaseHex c (hhex c hc)
    exact ⟨hsize.symm.trans h.length, hhex⟩
  · intro h
    have hsize := utf8ByteSize_ofList_of_ascii hash fun c hc =>
      utf8Size_of_lowercaseHex c (h.2 c hc)
    exact ⟨hsize.trans h.1, hchars.mpr h.2⟩

theorem slash_notMem_of_lowercaseHex (hash : List Char) (h : ∀ c ∈ hash, LowercaseHex c) :
    '/' ∉ hash := by
  intro hmem
  exact absurd (h '/' hmem) (by simp [LowercaseHex])

theorem all_isAsciiDigit_iff (size : List Char) :
    size.all isAsciiDigit = true ↔ ∀ c ∈ size, DecimalDigit c := by
  simp [isAsciiDigit, DecimalDigit]

theorem parseI64_eq_some_iff (size : List Char) (n : ℕ) :
    parseI64 size = some n ↔ Nat.ofDigitChars 10 size 0 ≤ i64Max ∧
      n = Nat.ofDigitChars 10 size 0 := by
  simp only [parseI64, Option.ite_none_right_eq_some, Option.some.injEq]
  exact and_congr_right fun _ => eq_comm

/-- What the parser accepts, and what it makes of it. -/
theorem fromStr_eq_ok_iff (s : String) (d : Digest) :
    fromStr s = .ok d ↔ ∃ hash size, s.toList = textOf hash size ∧ TextParts hash size ∧
      d.hash = String.ofList hash ∧ d.sizeBytes = Nat.ofDigitChars 10 size 0 := by
  constructor
  · intro h
    unfold fromStr at h
    split at h
    · cases h
    rename_i stripped hstrip
    split at h
    · cases h
    rename_i hash size hsplit
    split at h
    · cases h
    rename_i hlen
    split at h
    · cases h
    rename_i hchars
    split at h
    · cases h
    rename_i hempty
    split at h
    · cases h
    rename_i hdigits
    split at h
    · cases h
    rename_i n hparse
    cases h
    obtain ⟨hlength, hhex⟩ := (validHash_ofList_iff hash).mp
      ⟨not_not.mp hlen, Bool.not_eq_true _ ▸ hchars⟩
    obtain ⟨hle, hvalue⟩ := (parseI64_eq_some_iff size n).mp hparse
    refine ⟨hash, size, ?_, ⟨hlength, hhex, ?_, ?_, hle⟩, rfl, hvalue⟩
    · rw [stripPrefix_eq_some _ _ _ hstrip, splitOnce_eq_some _ _ _ _ hsplit, textOf_eq]
    · simpa using hempty
    · rw [← all_isAsciiDigit_iff]
      simpa using hdigits
  · rintro ⟨hash, size, htext, hparts, hhash, hsize⟩
    have hvalid := (validHash_ofList_iff hash).mpr ⟨hparts.hash_length, hparts.hash_chars⟩
    have hsplit := splitOnce_append '/' hash size
      (slash_notMem_of_lowercaseHex hash hparts.hash_chars)
    have hempty : size.isEmpty = false := by simpa using hparts.size_ne_nil
    have hdigits := (all_isAsciiDigit_iff size).mpr hparts.size_digits
    have hparse := (parseI64_eq_some_iff size d.sizeBytes).mpr ⟨hparts.size_le, hsize⟩
    unfold fromStr
    rw [htext, textOf_eq, stripPrefix_append]
    simp only [hsplit]
    rw [dif_neg (not_not.mpr hvalid.length), dif_neg (Bool.not_eq_true _ ▸ hvalid.chars),
      hempty, hdigits]
    simp only [Bool.false_eq_true, if_false, Bool.not_true]
    split
    · next hnone => rw [hparse] at hnone; cases hnone
    · next n hsome =>
        rw [hparse, Option.some.injEq] at hsome
        exact congrArg Except.ok (Digest.ext hhash.symm hsome.symm)

theorem display_of_fromStr (s : String) (d : Digest) (h : fromStr s = .ok d) :
    d.display = canonicalText s := by
  obtain ⟨hash, size, htext, hparts, hhash, hsize⟩ := (fromStr_eq_ok_iff s d).mp h
  have hsplit : splitOnce '/' s.toList = some ("sha256:".toList ++ hash, size) := by
    rw [htext, textOf_eq, ← List.append_assoc]
    apply splitOnce_append
    rw [List.mem_append, not_or]
    exact ⟨by decide, slash_notMem_of_lowercaseHex hash hparts.hash_chars⟩
  apply String.toList_injective
  rw [toList_display, canonicalText, hsplit, hhash, String.toList_ofList, hsize,
    toDigits_ofDigitChars size hparts.size_digits hparts.size_ne_nil]
  simp

/-- The text format of digests. The parser accepts exactly the texts of a hash of 64
lowercase hexadecimal characters and a decimal size that fits an `i64`; it undoes the
printer; the printer removes redundant leading zeros from an accepted text, and two
accepted texts denote the same digest exactly when they then agree. -/
theorem digest_text_format :
    (∀ s d, fromStr s = .ok d ↔ ∃ hash size, s.toList = textOf hash size ∧
      TextParts hash size ∧ d.hash = String.ofList hash ∧
        d.sizeBytes = Nat.ofDigitChars 10 size 0) ∧
    (∀ d : Digest, fromStr d.display = .ok d) ∧
    (∀ s d, fromStr s = .ok d → d.display = canonicalText s) ∧
    ∀ s t d e, fromStr s = .ok d → fromStr t = .ok e →
      (d = e ↔ canonicalText s = canonicalText t) := by
  refine ⟨fromStr_eq_ok_iff, fromStr_display, display_of_fromStr, ?_⟩
  intro s t d e hs ht
  rw [← display_of_fromStr s d hs, ← display_of_fromStr t e ht]
  constructor
  · intro h
    rw [h]
  · intro h
    have hparsed := fromStr_display d
    rw [h, fromStr_display e] at hparsed
    exact (Except.ok.inj hparsed).symm

end Digest

end RemoteFs
