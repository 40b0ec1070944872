import UnusedAssets.Text.Fields

/-!
# Substituted characters

What writing every occurrence of a character otherwise does to a text. It acts on each part of a text
by itself (`substitute_append`) and leaves a text alone exactly if the character is not in it
(`substitute_eq_self_iff`). One character written as another and then back gives what only the second
step makes of the text (`substitute_substitute`), so the first step loses what the second one changes.
-/

namespace UnusedAssets.Text

variable {s text back : String} {c d : Char}

theorem toList_substitute (s : String) (c : Char) (text : String) :
    (substitute s c text).toList = s.toList.flatMap fun d => if d = c then text.toList else [d] :=
  String.toList_ofList

theorem not_mem_substitute (h : c ∉ text.toList) : c ∉ (substitute s c text).toList := by
  rw [toList_substitute, List.mem_flatMap]
  intro hmem
  obtain ⟨d, -, hd⟩ := hmem
  split at hd
  · exact h hd
  · next hne => exact hne (List.mem_singleton.mp hd).symm

theorem substitute_append (s t : String) (c : Char) (text : String) :
    substitute (s ++ t) c text = substitute s c text ++ substitute t c text := by
  rw [← String.toList_inj, String.toList_append, toList_substitute, toList_substitute,
    toList_substitute, String.toList_append, List.flatMap_append]

theorem substitute_of_not_mem (h : c ∉ s.toList) (text : String) : substitute s c text = s := by
  have hkept : ∀ d ∈ s.toList, (if d = c then text.toList else [d]) = [d] := by
    intro d hd
    have hne : d ≠ c := fun heq => h (heq ▸ hd)
    exact if_neg hne
  rw [← String.toList_inj, toList_substitute, List.flatMap_def, List.map_congr_left hkept,
    ← List.flatMap_def, List.flatMap_singleton']

theorem substitute_eq_self_iff (h : c ∉ text.toList) : substitute s c text = s ↔ c ∉ s.toList := by
  constructor
  · intro heq
    rw [← heq]
    exact not_mem_substitute h
  · intro hs
    exact substitute_of_not_mem hs text

/-- A character written as one other character. -/
theorem toList_substitute_of_single (h : text.toList = [d]) (s : String) (c : Char) :
    (substitute s c text).toList = s.toList.map fun x => if x = c then d else x := by
  have hsingle : ∀ x ∈ s.toList,
      (if x = c then text.toList else [x]) = [if x = c then d else x] := by
    intro x _
    rw [h]
    split <;> rfl
  rw [toList_substitute, List.flatMap_def, List.map_congr_left hsingle, ← List.flatMap_def,
    List.map_eq_flatMap]

theorem substitute_substitute (htext : text.toList = [d]) (hback : back.toList = [c]) (s : String) :
    substitute (substitute s c text) d back = substitute s d back := by
  rw [← String.toList_inj, toList_substitute_of_single hback, toList_substitute_of_single htext,
    toList_substitute_of_single hback, List.map_map]
  refine List.map_congr_left fun x _ => ?_
  by_cases hx : x = c
  · simp [hx]
  · simp [hx]

end UnusedAssets.Text
