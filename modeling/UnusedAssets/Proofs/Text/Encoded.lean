import UnusedAssets.Path
import UnusedAssets.Proofs.Text.Joined
import UnusedAssets.Proofs.Text.LenientDecoding

/-!
# Encoded texts and their parts

The bytes of a text put together from others are those of the others, one after the other
(`encode_append`), and a character of one byte stands in a text exactly if its byte stands in the
encoded one (`byte_mem_encode_iff`). So a text may be cut at its slashes before or after it is encoded
(`fields_encode`).
-/

namespace UnusedAssets.Text

open UnusedAssets.Path (slash)

theorem encode_append (s t : String) : encode (s ++ t) = encode s ++ encode t := by
  simp only [encode_eq_flatMap, String.toList_append, List.flatMap_append]

theorem encode_eq_nil_iff {s : String} : encode s = [] ↔ s = "" :=
  encode_inj (t := "")

/-- A byte below 128 spells a character by itself. -/
theorem code_of_mem_utf8EncodeChar {c : Char} {b : UInt8} (hb : b.toNat < 128)
    (h : b ∈ String.utf8EncodeChar c) : c.val.toNat = b.toNat := by
  have hcode := code_cases c
  unfold String.utf8EncodeChar at h
  dsimp only at h
  generalize c.val.toNat = m at *
  split_ifs at h <;>
    simp (disch := omega) only [List.mem_cons, List.not_mem_nil, or_false, ← UInt8.toNat_inj,
      toNat_byte] at h <;> omega

theorem byte_mem_encode_iff {c : Char} (hc : c.val.toNat < 128) {s : String} :
    UInt8.ofNat c.val.toNat ∈ encode s ↔ c ∈ s.toList := by
  constructor
  · intro h
    rw [encode_eq_flatMap, List.mem_flatMap] at h
    obtain ⟨d, hd, hmem⟩ := h
    have hbyte : (UInt8.ofNat c.val.toNat).toNat = c.val.toNat := toNat_byte (by omega)
    have hcode := code_of_mem_utf8EncodeChar (by omega) hmem
    have hchar : d = c := by
      rw [← Char.ofNat_toNat d, ← Char.ofNat_toNat c]
      exact congrArg Char.ofNat (hcode.trans hbyte)
    exact hchar ▸ hd
  · intro h
    rw [← decodeLenient_encode s] at h
    exact byte_mem_of_mem_decodeLenient hc h

theorem slash_mem_encode_iff {s : String} : slash ∈ encode s ↔ '/' ∈ s.toList :=
  byte_mem_encode_iff (c := '/') (by decide)

theorem encode_joinWith (ss : List String) :
    encode (joinWith "/" ss) = between slash (ss.map encode) := by
  induction ss with
  | nil => rfl
  | cons s ss ih =>
    cases ss with
    | nil => rfl
    | cons t ss =>
      rw [joinWith_cons "/" s (by simp), List.map_cons, between_cons slash _ (by simp), ← ih,
        encode_append, encode_append, List.append_assoc]
      rfl

theorem fields_encode (s : String) : fields slash (encode s) = (split s '/').map encode := by
  have hslash : ∀ f ∈ (split s '/').map encode, slash ∉ f := by
    intro f hf
    obtain ⟨part, hpart, rfl⟩ := List.mem_map.mp hf
    obtain ⟨cs, hcs, rfl⟩ := List.mem_map.mp hpart
    rw [slash_mem_encode_iff, String.toList_ofList]
    exact not_mem_of_mem_fields hcs
  have hbytes : encode s = between slash ((split s '/').map encode) := by
    rw [← encode_joinWith, joinWith_split]
  rw [hbytes, fields_between (by simpa using split_ne_nil s '/') hslash]

end UnusedAssets.Text
