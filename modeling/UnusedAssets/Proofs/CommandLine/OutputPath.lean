import UnusedAssets.CommandLine.OutputPath
import UnusedAssets.Proofs.Path
import UnusedAssets.Proofs.Text.Substitution

/-!
# Which output paths are accepted

An output path is confined if it is relative and none of its segments, which end at slashes and at
backslashes alike, leads upwards. Every confined path is accepted. The other accepted paths are those
whose only segment that leads upwards is the last one, behind a backslash (`checkOutput_iff`): slashes
alone do not cut it off, and the text that is looked for once backslashes count as slashes has a slash
behind it.
-/

namespace UnusedAssets

open Text

namespace Text

/-- Two separators, one of them taken for the other, cut where both cut one after the other. -/
theorem fields_map_ite {α : Type} [DecidableEq α] (sep other : α) (xs : List α) :
    fields sep (xs.map fun x => if x = other then sep else x) =
      (fields sep xs).flatMap (fields other) := by
  induction xs with
  | nil => rfl
  | cons x xs ih =>
    rw [List.map_cons]
    by_cases hsep : x = sep
    · subst hsep
      rw [ite_self]
      simp [fields, ih]
    · cases hfields : fields sep xs with
      | nil => exact absurd hfields (fields_ne_nil sep xs)
      | cons f fs =>
        rw [hfields, List.flatMap_cons] at ih
        by_cases hother : x = other
        · subst hother
          simp [fields, hsep, ih, hfields]
        · cases hinner : fields other f with
          | nil => exact absurd hinner (fields_ne_nil other f)
          | cons g gs => simp [fields, hsep, hother, ih, hfields, hinner]

variable {s part : String}

theorem split_substitute_backslash (s : String) : split (substitute s '\\' "/") '/' =
    (split s '/').flatMap fun part => split part '\\' := by
  have hslash : "/".toList = ['/'] := rfl
  rw [split, toList_substitute_of_single hslash, fields_map_ite, split, List.map_flatMap,
    List.flatMap_map]
  simp only [split, String.toList_ofList]

/-- A part that is not the last one has a slash behind it, and one before it unless it is the first. -/
theorem mem_dropLast_split_iff (h : '/' ∉ part.toList) : part ∈ (split s '/').dropLast ↔
    startsWith s (part ++ "/") = true ∨ mentions s ("/" ++ part ++ "/") = true := by
  constructor
  · intro hmem
    obtain ⟨before, after, hinit⟩ := List.append_of_mem hmem
    have hs := joinWith_split s
    rw [← List.dropLast_concat_getLast (split_ne_nil s '/'), hinit, List.append_assoc,
      List.cons_append] at hs
    generalize hrest : after ++ [(split s '/').getLast (split_ne_nil s '/')] = rest at hs
    have hne : rest ≠ [] := by simp [← hrest]
    by_cases hbefore : before = []
    · rw [hbefore, List.nil_append, joinWith_cons "/" part hne] at hs
      exact .inl (startsWith_iff_append.mpr ⟨_, hs.symm⟩)
    · rw [joinWith_append "/" hbefore (List.cons_ne_nil _ _), joinWith_cons "/" part hne] at hs
      refine .inr (mentions_iff.mpr ⟨(joinWith "/" before).toList, (joinWith "/" rest).toList, ?_⟩)
      rw [← hs]
      simp
  · intro hfound
    have hcut (rest : String) : part ∈ (split (part ++ "/" ++ rest) '/').dropLast := by
      rw [split_append_slash, split_of_not_mem h,
        List.dropLast_append_of_ne_nil (split_ne_nil rest '/')]
      exact List.mem_append_left _ List.mem_cons_self
    rcases hfound with hstarts | hmentions
    · obtain ⟨rest, rfl⟩ := startsWith_iff_append.mp hstarts
      exact hcut rest
    · obtain ⟨l, r, hs⟩ := mentions_iff.mp hmentions
      obtain rfl : s = String.ofList l ++ "/" ++ (part ++ "/" ++ String.ofList r) := by
        rw [← String.toList_inj, hs]
        simp
      rw [split_append_slash, List.dropLast_append_of_ne_nil (split_ne_nil _ '/')]
      exact List.mem_append_right _ (hcut _)

theorem exists_append_of_split {init : List String} (h : split s '/' = init ++ [part]) :
    ∃ lead, s = lead ++ part := by
  have hs := joinWith_split s
  rw [h] at hs
  by_cases hinit : init = []
  · subst hinit
    exact ⟨"", by rw [← hs]; simp [joinWith]⟩
  · rw [joinWith_append "/" hinit (List.cons_ne_nil _ _)] at hs
    exact ⟨_, hs.symm⟩

end Text

namespace CommandLine

variable {path : String}

/-- The parts of a path between separators, slashes and backslashes alike. -/
def splitAtSeparators (path : String) : List String :=
  (split path '/').flatMap fun part => split part '\\'

/-- A path can be handed over, is relative, and no segment of it leads upwards. -/
structure Confined (path : String) : Prop where
  no_nul : '\x00' ∉ path.toList
  relative : startsWith path "/" = false
  downwards : ".." ∉ splitAtSeparators path

theorem upwards_mem_splitAtSeparators (h : ".." ∈ split path '/') :
    ".." ∈ splitAtSeparators path :=
  List.mem_flatMap.mpr ⟨"..", h, by decide⟩

theorem upwards_mem_parts :
    encode ".." ∈ Path.parts (encode path) ↔ ".." ∈ split path '/' := by
  rw [Path.parts_encode, List.mem_map]
  simp

theorem upwards_mem_components (h : startsWith path "/" = false) :
    encode ".." ∈ Path.components (encode path) ↔ ".." ∈ split path '/' := by
  rw [← upwards_mem_parts, Path.components, Path.isAbsolute_encode, h, if_neg (by decide)]
  cases Path.parts (encode path) with
  | nil => rfl
  | cons first rest => simp

/-- What a path is checked for, in terms of its segments. -/
theorem checkOutput_eq_ok_iff : checkOutput path = .ok () ↔ '\x00' ∉ path.toList ∧
    startsWith path "/" = false ∧ ".." ∉ split path '/' ∧
      ".." ∉ (splitAtSeparators path).dropLast := by
  have hdisguised : (mentions (substitute path '\\' "/") "/../" ||
      startsWith (substitute path '\\' "/") "../") = true ↔
        ".." ∈ (splitAtSeparators path).dropLast := by
    rw [splitAtSeparators, ← split_substitute_backslash, mem_dropLast_split_iff (by decide),
      Bool.or_eq_true,
      or_comm]
    rfl
  rw [checkOutput]
  by_cases hnul : '\x00' ∈ path.toList
  · simp [hnul]
  rw [if_neg hnul]
  rw [Path.isAbsolute_encode]
  by_cases habsolute : startsWith path "/" = true
  · simp [habsolute]
  rw [if_neg habsolute]
  have hrelative : startsWith path "/" = false := by simpa using habsolute
  by_cases hup : ".." ∈ split path '/'
  · rw [if_pos ((upwards_mem_components hrelative).mpr hup)]
    simp [hup]
  rw [if_neg (mt (upwards_mem_components hrelative).mp hup)]
  by_cases hbefore : ".." ∈ (splitAtSeparators path).dropLast
  · rw [if_pos (hdisguised.mpr hbefore)]
    simp [hbefore]
  · rw [if_neg (mt hdisguised.mp hbefore)]
    simp [hnul, hrelative, hup, hbefore]

/-- If the last segment alone leads upwards and is no part between slashes, a backslash is before it. -/
theorem endsWith_of_upwards (hslash : ".." ∉ split path '/')
    (hlast : ".." ∉ (splitAtSeparators path).dropLast) (h : ".." ∈ splitAtSeparators path) :
    endsWith path "\\.." = true := by
  obtain ⟨init, part, hparts⟩ : ∃ init part, split path '/' = init ++ [part] :=
    ⟨_, _, (List.dropLast_concat_getLast (split_ne_nil path '/')).symm⟩
  obtain ⟨inner, name, hinner⟩ : ∃ inner name, fields '\\' part.toList = inner ++ [name] :=
    ⟨_, _, (List.dropLast_concat_getLast (fields_ne_nil '\\' part.toList)).symm⟩
  have hname : String.ofList name = ".." := by
    have hsegments : splitAtSeparators path = ((init.flatMap fun part => split part '\\') ++
        inner.map String.ofList) ++ [String.ofList name] := by
      rw [splitAtSeparators, hparts, List.flatMap_append, List.flatMap_singleton, split, hinner,
        List.map_append, List.map_singleton, List.append_assoc]
    rw [hsegments, List.dropLast_concat] at hlast
    rw [hsegments] at h
    rcases List.mem_append.mp h with hbefore | heq
    · exact absurd hbefore hlast
    · exact (List.mem_singleton.mp heq).symm
  have hpart := between_fields '\\' part.toList
  rw [hinner] at hpart
  have hne : inner ≠ [] := by
    intro hnil
    rw [hnil, List.nil_append, between] at hpart
    have heq : part = ".." := by rw [← hname, hpart, String.ofList_toList]
    exact hslash (by simp [hparts, heq])
  rw [between_append '\\' hne (by simp), between] at hpart
  obtain ⟨lead, hlead⟩ := exists_append_of_split hparts
  have hdots : name = ['.', '.'] := by simpa using congrArg String.toList hname
  refine endsWith_iff.mpr ⟨lead.toList ++ between '\\' inner, ?_⟩
  rw [hlead, String.toList_append, ← hpart, hdots]
  simp

theorem exists_splitAtSeparators_of_endsWith (h : endsWith path "\\.." = true) :
    ∃ before, splitAtSeparators path = before ++ [".."] ∧
      (".." ∈ split path '/' → ".." ∈ before) := by
  obtain ⟨rest, rfl⟩ := endsWith_iff_append.mp h
  obtain ⟨init, part, -, hparts⟩ := @exists_split_append "\\.." '/' (by decide) rest
  have hpart : split (part ++ "\\..") '\\' = split part '\\' ++ [".."] :=
    split_of_toList (t := "..") (by simp)
  refine ⟨(init.flatMap fun part => split part '\\') ++ split part '\\', ?_, fun hup => ?_⟩
  · rw [splitAtSeparators, hparts, List.flatMap_append, List.flatMap_singleton, hpart,
      List.append_assoc]
  · rw [hparts] at hup
    rcases List.mem_append.mp hup with hinit | heq
    · exact List.mem_append_left _ (List.mem_flatMap.mpr ⟨"..", hinit, by decide⟩)
    · have hchar : '\\' ∈ "..".toList := by
        rw [List.mem_singleton.mp heq]
        simp
      exact absurd hchar (by decide)

/-- A path is accepted exactly if it is confined, or if of its segments the last one alone leads upwards
and a backslash stands before that. -/
theorem checkOutput_iff (path : String) : checkOutput path = .ok () ↔ Confined path ∨
    '\x00' ∉ path.toList ∧ startsWith path "/" = false ∧ ".." ∉ (splitAtSeparators path).dropLast ∧
      endsWith path "\\.." = true := by
  rw [checkOutput_eq_ok_iff]
  constructor
  · rintro ⟨hnul, hrelative, hslash, hbefore⟩
    by_cases hup : ".." ∈ splitAtSeparators path
    · exact .inr ⟨hnul, hrelative, hbefore, endsWith_of_upwards hslash hbefore hup⟩
    · exact .inl ⟨hnul, hrelative, hup⟩
  · rintro (hconfined | ⟨hnul, hrelative, hbefore, hends⟩)
    · exact ⟨hconfined.no_nul, hconfined.relative,
        mt upwards_mem_splitAtSeparators hconfined.downwards,
        fun hmem => hconfined.downwards (List.dropLast_subset _ hmem)⟩
    · refine ⟨hnul, hrelative, fun hslash => ?_, hbefore⟩
      obtain ⟨before, hsegments, hupwards⟩ := exists_splitAtSeparators_of_endsWith hends
      rw [hsegments, List.dropLast_concat] at hbefore
      exact hbefore (hupwards hslash)

/-- The check accepts a path that is not confined. -/
theorem accepts_upwards_at_end : ¬ ∀ path, checkOutput path = .ok () ↔ Confined path := by
  intro h
  have hconfined := (h "a\\..").mp (by decide)
  exact hconfined.downwards (by decide)

end CommandLine

end UnusedAssets
