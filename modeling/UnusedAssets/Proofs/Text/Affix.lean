import Mathlib.Data.List.TakeWhile
import UnusedAssets.Proofs.Text.Joined
import UnusedAssets.Text.Affix

/-!
# Beginnings and endings of texts

To begin with a text is to be that text and another one behind it (`startsWith_iff_append`), and to end
with a text is the same the other way round. A path begins with the path of a folder and a slash
exactly if the folder's segments are a proper prefix of its own (`startsWith_append_slash_iff`).
-/

namespace UnusedAssets.Text

variable {s t lead tail : String} {c : Char}

theorem startsWith_iff_append : startsWith s lead = true ↔ ∃ rest, s = lead ++ rest := by
  rw [startsWith_iff]
  constructor
  · intro h
    obtain ⟨rest, hrest⟩ := h
    exact ⟨String.ofList rest, by rw [← String.toList_inj, hrest]; simp⟩
  · intro h
    obtain ⟨rest, rfl⟩ := h
    exact ⟨rest.toList, String.toList_append⟩

theorem endsWith_iff_append : endsWith s tail = true ↔ ∃ rest, s = rest ++ tail := by
  rw [endsWith_iff]
  constructor
  · intro h
    obtain ⟨rest, hrest⟩ := h
    exact ⟨String.ofList rest, by rw [← String.toList_inj, hrest]; simp⟩
  · intro h
    obtain ⟨rest, rfl⟩ := h
    exact ⟨rest.toList, String.toList_append⟩

theorem startsWith_trans (h : startsWith s t = true) (ht : startsWith t lead = true) :
    startsWith s lead = true := by
  rw [startsWith, List.isPrefixOf_iff_prefix] at *
  exact ht.trans h

theorem startsWith_append_append (s t lead : String) :
    startsWith (s ++ t) (s ++ lead) = startsWith t lead := by
  rw [Bool.eq_iff_iff, startsWith, startsWith, List.isPrefixOf_iff_prefix,
    List.isPrefixOf_iff_prefix, String.toList_append, String.toList_append,
    List.prefix_append_right_inj]

/-- Whether a text ends with a slash is a matter of its last part, if that is not empty. -/
theorem endsWith_slash_append (s : String) (ht : t ≠ "") :
    endsWith (s ++ t) "/" = endsWith t "/" := by
  have hlast (s : String) : endsWith s "/" = true ↔ s.toList.getLast? = some '/' := by
    rw [endsWith_iff, List.getLast?_eq_some_iff]
    rfl
  have hchars : t.toList ≠ [] := by simpa using ht
  rw [Bool.eq_iff_iff, hlast, hlast, String.toList_append, List.getLast?_append,
    List.getLast?_eq_some_getLast hchars, Option.some_or]

theorem head?_dropLeading (s : String) (c : Char) :
    ∀ d ∈ (dropLeading s c).toList.head?, d ≠ c := by
  intro d hd
  rw [dropLeading, String.toList_ofList] at hd
  have hhead := List.head?_dropWhile_not (· == c) s.toList
  rw [Option.mem_def.mp hd] at hhead
  simpa using hhead

theorem dropLeading_eq_self (h : ∀ d ∈ s.toList.head?, d ≠ c) : dropLeading s c = s := by
  rw [← String.toList_inj, dropLeading, String.toList_ofList]
  cases hchars : s.toList with
  | nil => rfl
  | cons d cs =>
    rw [hchars] at h
    rw [List.dropWhile_cons_of_neg (by simpa using h)]

theorem startsWith_slash_eq_false_iff :
    startsWith s "/" = false ↔ ∀ d ∈ s.toList.head?, d ≠ '/' := by
  rw [← Bool.not_eq_true, startsWith_iff]
  cases s.toList with
  | nil => simp
  | cons d cs => simp

/-- Whether a text begins with a slash is a matter of its first part, if that is not empty. -/
theorem startsWith_slash_append (hs : s ≠ "") (t : String) :
    startsWith (s ++ t) "/" = startsWith s "/" := by
  have hchars : s.toList ≠ [] := by simpa using hs
  obtain ⟨c, cs, hc⟩ := List.exists_cons_of_ne_nil hchars
  simp [startsWith, hc, List.isPrefixOf]

theorem startsWith_append_slash_iff {path folder : String} :
    startsWith path (folder ++ "/") = true ↔
      split folder '/' <+: split path '/' ∧ split folder '/' ≠ split path '/' := by
  constructor
  · intro h
    obtain ⟨rest, rfl⟩ := startsWith_iff_append.mp h
    rw [split_append_slash]
    refine ⟨List.prefix_append _ _, fun heq => ?_⟩
    exact split_ne_nil rest '/' (List.self_eq_append_right.mp heq)
  · intro h
    obtain ⟨⟨more, hmore⟩, hne⟩ := h
    have hnil : more ≠ [] := fun hnil => hne (by rw [← hmore, hnil, List.append_nil])
    have hpath : path = folder ++ "/" ++ joinWith "/" more := by
      rw [← joinWith_split path, ← hmore, joinWith_append "/" (split_ne_nil folder '/') hnil,
        joinWith_split]
    exact startsWith_iff_append.mpr ⟨_, hpath⟩

/-- The ending of a joined text that has no slash is that of its last part. -/
theorem endsWith_append_slash_iff (outer name : String) (h : '/' ∉ tail.toList) :
    endsWith (outer ++ "/" ++ name) tail = true ↔ endsWith name tail = true := by
  simp only [endsWith, List.isSuffixOf_iff_suffix, String.toList_append]
  refine ⟨fun hends => ?_, fun hends => hends.trans (List.suffix_append _ _)⟩
  have hname : '/' :: name.toList <:+ outer.toList ++ "/".toList ++ name.toList :=
    ⟨outer.toList, by simp⟩
  rcases List.suffix_or_suffix_of_suffix hends hname with hs | hs
  · rcases List.suffix_cons_iff.mp hs with he | hs
    · exact absurd (by simp [he]) h
    · exact hs
  · exact absurd (hs.subset List.mem_cons_self) h

theorem endsWith_joinWith_concat_iff {outer : List String} {name : String}
    (h : '/' ∉ tail.toList) :
    endsWith (joinWith "/" (outer ++ [name])) tail = true ↔ endsWith name tail = true := by
  by_cases houter : outer = []
  · subst houter
    rfl
  · rw [joinWith_append "/" houter (by simp)]
    exact endsWith_append_slash_iff _ name h

end UnusedAssets.Text
