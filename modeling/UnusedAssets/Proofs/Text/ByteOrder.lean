import UnusedAssets.Text.Sorted
import UnusedAssets.Text.Utf8
import Mathlib.Tactic.SplitIfs

/-!
# Byte order of texts

Texts are compared character by character, their encodings byte by byte. The two orders agree
(`encode_le_encode_iff`), so texts are sorted alike by both (`sorted_eq_sortedByBytes`). Sorted texts
ascend in bytes, and strictly if none stands twice (`ascending_sorted`).
-/

namespace UnusedAssets.Text

open Std

theorem encode_eq_flatMap (s : String) :
    encode s = s.toList.flatMap String.utf8EncodeChar := by
  unfold encode
  rw [String.toUTF8, ← String.utf8Encode_toList]
  simp [List.utf8Encode]

theorem toNat_byte {m : Nat} (h : m < 256) : (UInt8.ofNat m).toNat = m := by
  rw [UInt8.toNat_ofNat', Nat.mod_eq_of_lt h]

theorem byte_lt_iff {m n : Nat} (hm : m < 256) (hn : n < 256) :
    UInt8.ofNat m < UInt8.ofNat n ↔ m < n := by
  rw [UInt8.lt_iff_toNat_lt, toNat_byte hm, toNat_byte hn]

theorem byte_eq_iff {m n : Nat} (hm : m < 256) (hn : n < 256) :
    UInt8.ofNat m = UInt8.ofNat n ↔ m = n := by
  rw [← UInt8.toNat_inj, toNat_byte hm, toNat_byte hn]

/-- The code of a character is that of no surrogate, and bounded. -/
theorem code_cases (c : Char) :
    c.val.toNat < 0xD800 ∨ 0xDFFF < c.val.toNat ∧ c.val.toNat < 0x110000 := c.valid

theorem code_lt (c : Char) : c.val.toNat < 0x110000 := by
  rcases code_cases c with h | h
  · exact Nat.lt_trans h (by decide)
  · exact h.2

/-- The encodings of two characters differ in a byte that both have, whatever follows them. -/
theorem utf8EncodeChar_append_lt {c d : Char} (h : c < d) (u v : Bytes) :
    String.utf8EncodeChar c ++ u < String.utf8EncodeChar d ++ v := by
  have hc := code_lt c
  have hd := code_lt d
  have hcd : c.val.toNat < d.val.toNat := h
  unfold String.utf8EncodeChar
  dsimp only
  generalize c.val.toNat = m at *
  generalize d.val.toNat = n at *
  -- As digits to the base 64 the bytes are compared by linear arithmetic.
  have h1 (k : Nat) : k / 4096 = k / 64 / 64 := by omega
  have h2 (k : Nat) : k / 262144 = k / 64 / 64 / 64 := by omega
  simp only [h1, h2]
  split_ifs <;>
    simp (disch := omega) only [List.cons_append, List.nil_append, List.cons_lt_cons_iff,
      byte_lt_iff, byte_eq_iff] <;> omega

theorem append_lt_append_left {u v : Bytes} (w : Bytes) (h : u < v) : w ++ u < w ++ v := by
  induction w with
  | nil => exact h
  | cons b w ih => exact List.cons_lt_cons_iff.mpr (.inr ⟨rfl, ih⟩)

theorem flatMap_utf8EncodeChar_lt {cs ds : List Char} (h : cs < ds) :
    cs.flatMap String.utf8EncodeChar < ds.flatMap String.utf8EncodeChar := by
  induction cs generalizing ds with
  | nil =>
    cases ds with
    | nil => exact absurd h (List.not_lt_nil _)
    | cons d ds =>
      rw [List.flatMap_nil, List.flatMap_cons]
      cases hd : String.utf8EncodeChar d with
      | nil => exact absurd hd String.utf8EncodeChar_ne_nil
      | cons b bs => exact List.nil_lt_cons _ _
  | cons c cs ih =>
    cases ds with
    | nil => exact absurd h (List.not_lt_nil _)
    | cons d ds =>
      rw [List.flatMap_cons, List.flatMap_cons]
      rcases List.cons_lt_cons_iff.mp h with hcd | ⟨rfl, hrest⟩
      · exact utf8EncodeChar_append_lt hcd _ _
      · exact append_lt_append_left _ (ih hrest)

/-- A smaller text is smaller in bytes. -/
theorem encode_lt_encode {s t : String} (h : compare s t = .lt) : encode s < encode t := by
  have hlt : s < t := compareOfLessAndEq_eq_lt.mp h
  rw [encode_eq_flatMap, encode_eq_flatMap]
  exact flatMap_utf8EncodeChar_lt hlt

theorem encode_le_encode_iff {s t : String} : encode s ≤ encode t ↔ compare s t ≠ .gt := by
  constructor
  · intro hle hgt
    exact List.not_lt.mpr hle (encode_lt_encode (OrientedCmp.lt_of_gt hgt))
  · intro hle
    cases h : compare s t with
    | lt => exact List.le_of_lt (encode_lt_encode h)
    | eq => exact LawfulEqOrd.eq_of_compare h ▸ List.le_refl _
    | gt => exact absurd h hle

/-- Texts in the order of their bytes, each as often as before. -/
def sortedByBytes (texts : List String) : List String :=
  texts.mergeSort fun s t => decide (encode s ≤ encode t)

theorem sorted_eq_sortedByBytes (texts : List String) : sorted texts = sortedByBytes texts := by
  rw [sorted, sortedByBytes]
  congr 1
  funext s t
  rw [Bool.eq_iff_iff, bne_iff_ne, decide_eq_true_eq, encode_le_encode_iff]

theorem pairwise_sorted (texts : List String) :
    (sorted texts).Pairwise fun s t => encode s ≤ encode t := by
  rw [sorted_eq_sortedByBytes]
  refine (List.pairwise_mergeSort (fun s t u hst htu => ?_) (fun s t => ?_) texts).imp
    fun hle => of_decide_eq_true hle
  · exact decide_eq_true (List.le_trans (of_decide_eq_true hst) (of_decide_eq_true htu))
  · simpa using List.le_total (encode s) (encode t)

theorem eq_of_encode_le {s t : String} (h : encode s ≤ encode t) (h' : encode t ≤ encode s) :
    s = t :=
  encode_inj.mp (List.le_antisymm h h')

theorem filter_sorted (test : String → Bool) (texts : List String) :
    (sorted texts).filter test = sorted (texts.filter test) :=
  (((sorted_perm texts).filter test).trans (sorted_perm _).symm).eq_of_pairwise
    (fun _ _ _ _ => eq_of_encode_le) ((pairwise_sorted texts).filter _) (pairwise_sorted _)

theorem ascending_sorted {texts : List String} (h : texts.Nodup) :
    (sorted texts).Pairwise fun s t => encode s < encode t :=
  ((pairwise_sorted texts).and ((sorted_perm texts).nodup_iff.mpr h)).imp
    fun h => List.not_le.mp fun hge => h.2 (eq_of_encode_le h.1 hge)

end UnusedAssets.Text
