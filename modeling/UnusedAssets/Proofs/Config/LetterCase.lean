import Mathlib.Data.List.Forall2
import UnusedAssets.Config

/-!
# Capital and small letters

A format is checked with all its letters made small, and asked for letter by letter. Both tests
accept the same texts (`equalsUpToCase_iff`): a word of small letters, any of them written as
capitals (`lowercase_eq_iff`).
-/

namespace UnusedAssets.Config

variable {c d : Char} {s t word : String}

theorem toNat_toLower (c : Char) :
    c.toLower.toNat = if 65 ≤ c.toNat ∧ c.toNat ≤ 90 then c.toNat + 32 else c.toNat := by
  have hle : c.val ≥ 'A'.val ∧ c.val ≤ 'Z'.val ↔ 65 ≤ c.toNat ∧ c.toNat ≤ 90 := Iff.rfl
  unfold Char.toLower
  by_cases h : 65 ≤ c.toNat ∧ c.toNat ≤ 90
  · rw [dif_pos (hle.mpr h), if_pos h]
    have hadd : (c.val + ('a'.val - 'A'.val)).toNat = (c.toNat + 32) % 2 ^ 32 :=
      UInt32.toNat_add _ _
    exact hadd.trans (Nat.mod_eq_of_lt (by omega))
  · rw [dif_neg fun hc => h (hle.mp hc), if_neg h]

theorem toNat_toUpper_of_isLower (h : c.isLower = true) :
    97 ≤ c.toNat ∧ c.toNat ≤ 122 ∧ c.toUpper.toNat + 32 = c.toNat := by
  have hle : 'a'.val ≤ c.val ∧ c.val ≤ 'z'.val := by
    unfold Char.isLower at h
    simpa only [Bool.and_eq_true, decide_eq_true_eq] using h
  have hbounds : 97 ≤ c.toNat ∧ c.toNat ≤ 122 := hle
  -- The difference of the two alphabets is negative, so the sum wraps around.
  have hadd : (c.val + ('A'.val - 'a'.val)).toNat = (c.toNat + (2 ^ 32 - 32)) % 2 ^ 32 :=
    UInt32.toNat_add _ _
  have hupper : c.toUpper.toNat = (c.toNat + (2 ^ 32 - 32)) % 2 ^ 32 := by
    unfold Char.toUpper
    rw [dif_pos hle]
    exact hadd
  omega

/-- A character becomes a small letter if it is that letter or its capital. -/
theorem toLower_eq_iff (hd : d.isLower = true) : c.toLower = d ↔ c = d ∨ c = d.toUpper := by
  obtain ⟨hlow, hhigh, hupper⟩ := toNat_toUpper_of_isLower hd
  rw [← Char.toNat_inj, ← Char.toNat_inj, ← Char.toNat_inj, toNat_toLower]
  split <;> omega

theorem map_toLower_eq_iff {cs ds : List Char} (h : ∀ d ∈ ds, d.isLower = true) :
    cs.map Char.toLower = ds ↔ List.Forall₂ (fun c d => c = d ∨ c = d.toUpper) cs ds := by
  induction ds generalizing cs with
  | nil => simp
  | cons d ds ih =>
    obtain ⟨hd, hds⟩ := List.forall_mem_cons.mp h
    cases cs with
    | nil => simp
    | cons c cs =>
      rw [List.map_cons, List.cons.injEq, List.forall₂_cons, toLower_eq_iff hd, ih hds]

/-- A text is a word once all its letters are small, if it is the word with any of its letters as
capitals. -/
theorem lowercase_eq_iff (h : word.toList.all Char.isLower = true) : lowercase s = word ↔
    List.Forall₂ (fun c d => c = d ∨ c = d.toUpper) s.toList word.toList := by
  rw [lowercase, ← String.toList_inj, String.toList_ofList,
    map_toLower_eq_iff (List.all_eq_true.mp h)]

theorem isEqv_toLower_iff {cs ds : List Char} :
    (cs.isEqv ds fun c d => c.toLower == d.toLower) = true ↔
      cs.map Char.toLower = ds.map Char.toLower := by
  induction cs generalizing ds with
  | nil => cases ds <;> simp [List.isEqv]
  | cons c cs ih => cases ds <;> simp [List.isEqv, ih]

/-- Two texts are equal up to the case of their letters if they are equal once all are small. -/
theorem equalsUpToCase_iff : equalsUpToCase s t = true ↔ lowercase s = lowercase t := by
  rw [equalsUpToCase, isEqv_toLower_iff, lowercase, lowercase, ← String.toList_inj,
    String.toList_ofList, String.toList_ofList]

end UnusedAssets.Config
