import UnusedAssets.Proofs.Text.ByteOrder

/-!
# Lenient decoding

Lenient decoding reads the encoding of a character as that character, whatever comes after it
(`lenientChars_utf8EncodeChar_append`), so an encoded text is read as it was (`decodeLenient_encode`).
There is one law for each number of bytes that a character may have.

Other bytes are read with a loss: what is ill formed becomes a replacement character, and where none
is read, the text tells the bytes (`encode_decodeLenient`). A character of one byte is only read where
its byte stands (`byte_mem_of_mem_decodeLenient`).
-/

namespace UnusedAssets.Text

variable {a b c d : Nat} {x y z w : UInt8} {rest : Bytes}

theorem lenientFrom_eq (skip : Nat) (bytes : Bytes) :
    lenientFrom skip bytes = lenientChars (bytes.drop skip) := by
  induction bytes generalizing skip with
  | nil => cases skip <;> rfl
  | cons b bytes ih =>
    cases skip with
    | zero => rfl
    | succ skip => exact ih skip

theorem lenientChars_cons (first : UInt8) (rest : Bytes) : lenientChars (first :: rest) =
    (decodeFirst first rest).1 :: lenientChars (rest.drop (decodeFirst first rest).2) := by
  rw [lenientChars, lenientFrom, lenientFrom_eq]

theorem isContinuation_iff : isContinuation x = true ↔ 128 ≤ x.toNat ∧ x.toNat ≤ 191 := by
  simp [isContinuation, UInt8.le_iff_toNat_le]

theorem sequenceWidth_eq (x : UInt8) : sequenceWidth x =
    if x.toNat < 128 then 1
    else if 194 ≤ x.toNat ∧ x.toNat ≤ 223 then 2
    else if 224 ≤ x.toNat ∧ x.toNat ≤ 239 then 3
    else if 240 ≤ x.toNat ∧ x.toNat ≤ 244 then 4
    else 0 := by
  simp [sequenceWidth, UInt8.le_iff_toNat_le, UInt8.lt_iff_toNat_lt]

theorem admitsSecond_iff : admitsSecond x y = true ↔ 128 ≤ y.toNat ∧ y.toNat ≤ 191 ∧
    (x.toNat = 224 → 160 ≤ y.toNat) ∧ (x.toNat = 237 → y.toNat ≤ 159) ∧
    (x.toNat = 240 → 144 ≤ y.toNat) ∧ (x.toNat = 244 → y.toNat ≤ 143) := by
  simp only [admitsSecond, beq_iff_eq, ← UInt8.toNat_inj, apply_ite (· = true), isContinuation_iff,
    UInt8.le_iff_toNat_le, Bool.and_eq_true, decide_eq_true_eq, UInt8.reduceToNat]
  split_ifs <;> omega

theorem decodeFirst_one (hx : x.toNat < 128) : decodeFirst x rest = (Char.ofNat x.toNat, 0) := by
  have hwidth : sequenceWidth x = 1 := by rw [sequenceWidth_eq, if_pos hx]
  simp only [decodeFirst, hwidth]

theorem decodeFirst_two (hx : x.toNat = a + 192) (hy : y.toNat = b + 128) (hlow : 2 ≤ a)
    (ha : a < 32) (hb : b < 64) : decodeFirst x (y :: rest) = (Char.ofNat (a * 64 + b), 1) := by
  have hwidth : sequenceWidth x = 2 := by
    rw [sequenceWidth_eq, if_neg (by omega), if_pos (by omega)]
  have hcontinues : isContinuation y = true := isContinuation_iff.mpr (by omega)
  simp [decodeFirst, hwidth, hcontinues, appendBits, hx, hy]

/-- The characters of three bytes leave out those of two and the surrogates. -/
theorem decodeFirst_three (hx : x.toNat = a + 224) (hy : y.toNat = b + 128)
    (hz : z.toNat = c + 128) (ha : a < 16) (hb : b < 64) (hc : c < 64) (hlow : a = 0 → 32 ≤ b)
    (hsurrogate : a = 13 → b < 32) :
    decodeFirst x (y :: z :: rest) = (Char.ofNat ((a * 64 + b) * 64 + c), 2) := by
  have hwidth : sequenceWidth x = 3 := by
    rw [sequenceWidth_eq, if_neg (by omega), if_neg (by omega), if_pos (by omega)]
  have hadmits : admitsSecond x y = true := admitsSecond_iff.mpr (by omega)
  have hcontinues : isContinuation z = true := isContinuation_iff.mpr (by omega)
  simp [decodeFirst, hwidth, hadmits, hcontinues, appendBits, hx, hy, hz]

/-- The characters of four bytes leave out those of three, and end with U+10FFFF. -/
theorem decodeFirst_four (hx : x.toNat = a + 240) (hy : y.toNat = b + 128)
    (hz : z.toNat = c + 128) (hw : w.toNat = d + 128) (ha : a ≤ 4) (hb : b < 64) (hc : c < 64)
    (hd : d < 64) (hlow : a = 0 → 16 ≤ b) (hhigh : a = 4 → b < 16) :
    decodeFirst x (y :: z :: w :: rest) =
      (Char.ofNat (((a * 64 + b) * 64 + c) * 64 + d), 3) := by
  have hwidth : sequenceWidth x = 4 := by
    rw [sequenceWidth_eq, if_neg (by omega), if_neg (by omega), if_neg (by omega),
      if_pos (by omega)]
  have hadmits : admitsSecond x y = true := admitsSecond_iff.mpr (by omega)
  have hcontinues : isContinuation z = true := isContinuation_iff.mpr (by omega)
  have hends : isContinuation w = true := isContinuation_iff.mpr (by omega)
  simp [decodeFirst, hwidth, hadmits, hcontinues, hends, appendBits, hx, hy, hz, hw]

theorem lenientChars_utf8EncodeChar_append (c : Char) (rest : Bytes) :
    lenientChars (String.utf8EncodeChar c ++ rest) = c :: lenientChars rest := by
  have hcode := code_cases c
  have hchar : Char.ofNat c.val.toNat = c := Char.ofNat_toNat c
  unfold String.utf8EncodeChar
  dsimp only
  generalize c.val.toNat = m at *
  split_ifs with hone htwo hthree
  all_goals simp only [List.cons_append, List.nil_append, lenientChars_cons]
  · have hm : (UInt8.ofNat m).toNat = m := toNat_byte (by omega)
    rw [decodeFirst_one (by omega), hm, hchar, List.drop_zero]
  · have hm : m / 64 % 32 * 64 + m % 64 = m := by omega
    rw [decodeFirst_two (toNat_byte (by omega)) (toNat_byte (by omega)) (by omega) (by omega)
      (by omega), hm, hchar]
    rfl
  · have hm : (m / 4096 % 16 * 64 + m / 64 % 64) * 64 + m % 64 = m := by omega
    rw [decodeFirst_three (toNat_byte (by omega)) (toNat_byte (by omega)) (toNat_byte (by omega))
      (by omega) (by omega) (by omega) (by omega) (by omega), hm, hchar]
    rfl
  · have hm : ((m / 262144 % 8 * 64 + m / 4096 % 64) * 64 + m / 64 % 64) * 64 + m % 64 = m := by
      omega
    rw [decodeFirst_four (toNat_byte (by omega)) (toNat_byte (by omega)) (toNat_byte (by omega))
      (toNat_byte (by omega)) (by omega) (by omega) (by omega) (by omega) (by omega) (by omega), hm,
      hchar]
    rfl

/-- A written text is read leniently as it was. -/
theorem decodeLenient_encode (s : String) : decodeLenient (encode s) = s := by
  have hchars : ∀ cs : List Char, lenientChars (cs.flatMap String.utf8EncodeChar) = cs := by
    intro cs
    induction cs with
    | nil => rfl
    | cons c cs ih => rw [List.flatMap_cons, lenientChars_utf8EncodeChar_append, ih]
  rw [decodeLenient, encode_eq_flatMap, hchars, String.ofList_toList]

section Loss

theorem toNat_ofNat {n : Nat} (h : n.isValidChar) : (Char.ofNat n).val.toNat = n := by
  have hsize : n < 2 ^ 32 := by
    rcases h with h | h <;> omega
  rw [Char.ofNat, dif_pos h]
  exact BitVec.toNat_ofNatLT n hsize

theorem byte_eq_of_toNat {n : Nat} (h : x.toNat = n) : UInt8.ofNat n = x := by
  rw [← h, UInt8.ofNat_toNat]

theorem utf8EncodeChar_one (hx : x.toNat < 128) :
    String.utf8EncodeChar (Char.ofNat x.toNat) = [x] := by
  simp only [String.utf8EncodeChar, toNat_ofNat (.inl (by omega : x.toNat < 55296))]
  rw [if_pos (by omega), UInt8.ofNat_toNat]

theorem utf8EncodeChar_two (hx : x.toNat = a + 192) (hy : y.toNat = b + 128) (hlow : 2 ≤ a)
    (ha : a < 32) (hb : b < 64) : String.utf8EncodeChar (Char.ofNat (a * 64 + b)) = [x, y] := by
  have hcode : (Char.ofNat (a * 64 + b)).val.toNat = a * 64 + b := toNat_ofNat (.inl (by omega))
  simp only [String.utf8EncodeChar, hcode]
  rw [if_neg (by omega), if_pos (by omega), byte_eq_of_toNat (x := x) (by omega),
    byte_eq_of_toNat (x := y) (by omega)]

theorem utf8EncodeChar_three (hx : x.toNat = a + 224) (hy : y.toNat = b + 128)
    (hz : z.toNat = c + 128) (ha : a < 16) (hb : b < 64) (hc : c < 64) (hlow : a = 0 → 32 ≤ b)
    (hsurrogate : a = 13 → b < 32) :
    String.utf8EncodeChar (Char.ofNat ((a * 64 + b) * 64 + c)) = [x, y, z] := by
  have hcode : (Char.ofNat ((a * 64 + b) * 64 + c)).val.toNat = (a * 64 + b) * 64 + c :=
    toNat_ofNat (by unfold Nat.isValidChar; omega)
  simp only [String.utf8EncodeChar, hcode]
  rw [if_neg (by omega), if_neg (by omega), if_pos (by omega),
    byte_eq_of_toNat (x := x) (by omega), byte_eq_of_toNat (x := y) (by omega),
    byte_eq_of_toNat (x := z) (by omega)]

theorem utf8EncodeChar_four (hx : x.toNat = a + 240) (hy : y.toNat = b + 128)
    (hz : z.toNat = c + 128) (hw : w.toNat = d + 128) (ha : a ≤ 4) (hb : b < 64) (hc : c < 64)
    (hd : d < 64) (hlow : a = 0 → 16 ≤ b) (hhigh : a = 4 → b < 16) :
    String.utf8EncodeChar (Char.ofNat (((a * 64 + b) * 64 + c) * 64 + d)) = [x, y, z, w] := by
  have hcode : (Char.ofNat (((a * 64 + b) * 64 + c) * 64 + d)).val.toNat =
      ((a * 64 + b) * 64 + c) * 64 + d :=
    toNat_ofNat (by unfold Nat.isValidChar; omega)
  simp only [String.utf8EncodeChar, hcode]
  rw [if_neg (by omega), if_neg (by omega), if_neg (by omega),
    byte_eq_of_toNat (x := x) (by omega), byte_eq_of_toNat (x := y) (by omega),
    byte_eq_of_toNat (x := z) (by omega), byte_eq_of_toNat (x := w) (by omega)]

/-- What the first byte of a sequence can be. -/
theorem first_of_width (x : UInt8) :
    (sequenceWidth x = 1 → x.toNat < 128) ∧
    (sequenceWidth x = 2 → 194 ≤ x.toNat ∧ x.toNat ≤ 223) ∧
    (sequenceWidth x = 3 → 224 ≤ x.toNat ∧ x.toNat ≤ 239) ∧
    (sequenceWidth x = 4 → 240 ≤ x.toNat ∧ x.toNat ≤ 244) := by
  rw [sequenceWidth_eq]
  refine ⟨fun h => ?_, fun h => ?_, fun h => ?_, fun h => ?_⟩ <;> split_ifs at h <;> omega

/-- What may be read first: a character whose bytes stand there, or a replacement. -/
def IsReading (first : UInt8) (rest : Bytes) (read : Char × Nat) : Prop :=
  String.utf8EncodeChar read.1 ++ rest.drop read.2 = first :: rest ∨ read.1 = replacement

theorem isReading_ite {first : UInt8} {read : Char × Nat} {test : Bool} {passed : Nat}
    (h : test = true → IsReading first rest read) :
    IsReading first rest (if test then read else (replacement, passed)) := by
  split
  · next htest => exact h htest
  · exact .inr rfl

theorem isReading_one (hx : x.toNat < 128) : IsReading x rest (Char.ofNat x.toNat, 0) :=
  .inl (by rw [utf8EncodeChar_one hx]; rfl)

theorem isReading_two (hx : 194 ≤ x.toNat ∧ x.toNat ≤ 223) (hy : isContinuation y = true) :
    IsReading x (y :: rest) (Char.ofNat (appendBits (x.toNat - 0xC0) [y]), 1) := by
  have hy := isContinuation_iff.mp hy
  refine .inl ?_
  dsimp only [appendBits, List.foldl_cons, List.foldl_nil]
  rw [utf8EncodeChar_two (x := x) (y := y) (by omega) (by omega) (by omega) (by omega) (by omega)]
  rfl

theorem isReading_three (hx : 224 ≤ x.toNat ∧ x.toNat ≤ 239) (hy : admitsSecond x y = true)
    (hz : isContinuation z = true) :
    IsReading x (y :: z :: rest) (Char.ofNat (appendBits (x.toNat - 0xE0) [y, z]), 2) := by
  have hy := admitsSecond_iff.mp hy
  have hz := isContinuation_iff.mp hz
  refine .inl ?_
  dsimp only [appendBits, List.foldl_cons, List.foldl_nil]
  rw [utf8EncodeChar_three (x := x) (y := y) (z := z) (by omega) (by omega) (by omega)
    (by omega) (by omega) (by omega) (by omega) (by omega)]
  rfl

theorem isReading_four (hx : 240 ≤ x.toNat ∧ x.toNat ≤ 244) (hy : admitsSecond x y = true)
    (hz : isContinuation z = true) (hw : isContinuation w = true) :
    IsReading x (y :: z :: w :: rest)
      (Char.ofNat (appendBits (x.toNat - 0xF0) [y, z, w]), 3) := by
  have hy := admitsSecond_iff.mp hy
  have hz := isContinuation_iff.mp hz
  have hw := isContinuation_iff.mp hw
  refine .inl ?_
  dsimp only [appendBits, List.foldl_cons, List.foldl_nil]
  rw [utf8EncodeChar_four (x := x) (y := y) (z := z) (w := w) (by omega) (by omega) (by omega)
    (by omega) (by omega) (by omega) (by omega) (by omega) (by omega) (by omega)]
  rfl

theorem isReading_decodeFirst (first : UInt8) (rest : Bytes) :
    IsReading first rest (decodeFirst first rest) := by
  obtain ⟨hone, htwo, hthree, hfour⟩ := first_of_width first
  -- One case for each width; within a width, only the one where all bytes are there and fit.
  unfold decodeFirst
  split
  · next hwidth => exact isReading_one (hone hwidth)
  · next y more hwidth => exact isReading_ite (isReading_two (htwo hwidth))
  · next y more hwidth =>
    refine isReading_ite fun hy => ?_
    split
    · exact isReading_ite (isReading_three (hthree hwidth) hy)
    · exact .inr rfl
  · next y more hwidth =>
    refine isReading_ite fun hy => ?_
    split
    · exact isReading_ite fun hz => isReading_ite (isReading_four (hfour hwidth) hy hz)
    · exact .inr rfl
    · exact .inr rfl
  · exact .inr rfl

theorem flatMap_utf8EncodeChar_lenientChars {bytes : Bytes} (h : replacement ∉ lenientChars bytes) :
    (lenientChars bytes).flatMap String.utf8EncodeChar = bytes := by
  induction hn : bytes.length using Nat.strongRecOn generalizing bytes with
  | ind n ih =>
    cases bytes with
    | nil => rfl
    | cons first rest =>
      rw [lenientChars_cons, List.mem_cons, not_or] at h
      have hrest := ih _ (by rw [← hn]; simp only [List.length_drop, List.length_cons]; omega) h.2 rfl
      rw [lenientChars_cons, List.flatMap_cons, hrest]
      exact (isReading_decodeFirst first rest).resolve_right fun hreplaced => h.1 hreplaced.symm

/-- A text without replacements tells the bytes from which it was read. -/
theorem encode_decodeLenient {bytes : Bytes} (h : replacement ∉ (decodeLenient bytes).toList) :
    encode (decodeLenient bytes) = bytes := by
  rw [decodeLenient, String.toList_ofList] at *
  rw [encode_eq_flatMap, String.toList_ofList, flatMap_utf8EncodeChar_lenientChars h]

/-- Only one list of bytes is read as a text without replacements. -/
theorem eq_encode_of_decodeLenient {bytes : Bytes} {s : String} (h : decodeLenient bytes = s)
    (hs : replacement ∉ s.toList) : bytes = encode s := by
  subst h
  exact (encode_decodeLenient hs).symm

theorem byte_mem_of_mem_lenientChars {c : Char} (hc : c.val.toNat < 128) {bytes : Bytes}
    (h : c ∈ lenientChars bytes) : UInt8.ofNat c.val.toNat ∈ bytes := by
  induction hn : bytes.length using Nat.strongRecOn generalizing bytes with
  | ind n ih =>
    cases bytes with
    | nil => exact absurd h List.not_mem_nil
    | cons first rest =>
      rw [lenientChars_cons] at h
      rcases List.mem_cons.mp h with hfirst | hrest
      · rcases isReading_decodeFirst first rest with hread | hreplaced
        · -- A character of one byte is written as this byte, which is therefore the first.
          rw [← hfirst, String.utf8EncodeChar, if_pos (by omega), List.singleton_append] at hread
          exact List.mem_cons.mpr (.inl (List.cons.inj hread).1)
        · exact absurd (hfirst.trans hreplaced ▸ hc) (by decide)
      · have hmem := ih _ ?_ hrest rfl
        · exact List.mem_cons_of_mem _ (List.mem_of_mem_drop hmem)
        · rw [← hn, List.length_drop, List.length_cons]
          omega

/-- A character of one byte is read only where its byte stands. -/
theorem byte_mem_of_mem_decodeLenient {c : Char} (hc : c.val.toNat < 128) {bytes : Bytes}
    (h : c ∈ (decodeLenient bytes).toList) : UInt8.ofNat c.val.toNat ∈ bytes := by
  rw [decodeLenient, String.toList_ofList] at h
  exact byte_mem_of_mem_lenientChars hc h

theorem decodeLenient_eq_empty_iff {bytes : Bytes} : decodeLenient bytes = "" ↔ bytes = [] := by
  cases bytes with
  | nil => exact ⟨fun _ => rfl, fun _ => rfl⟩
  | cons first rest => simp [decodeLenient, lenientChars_cons]

end Loss

end UnusedAssets.Text
