import UnusedAssets.Proofs.Candidate.Excludes

/-!
# Exclusions end at folders

Every exclusion, fixed or extra, is the path of a folder with a slash behind it
(`isFolderLead_of_mem_excludesWith`). So an exclusion takes whole folders away, and no path goes that
only begins like the name of one (`excludesWith_boundaries`).
-/

namespace UnusedAssets

open Text

namespace Candidate

variable {all extra : List String} {e folder text : String}

/-- Whether a text leads from the project's folder into some folder below it, its slash included. -/
structure IsFolderLead (e : String) : Prop where
  relative : startsWith e "/" = false
  closed : endsWith e "/" = true

instance (e : String) : Decidable (IsFolderLead e) :=
  decidable_of_iff (startsWith e "/" = false ∧ endsWith e "/" = true)
    ⟨fun h => ⟨h.1, h.2⟩, fun h => ⟨h.relative, h.closed⟩⟩

theorem IsFolderLead.exists_folder (h : IsFolderLead e) :
    ∃ folder, folder ≠ "" ∧ e = folder ++ "/" := by
  obtain ⟨folder, rfl⟩ := endsWith_iff_append.mp h.closed
  refine ⟨folder, ?_, rfl⟩
  rintro rfl
  exact absurd h.relative (by decide)

/-- What is left of an extra exclusion without what leads it nowhere. -/
def trimmed (extra : String) : String := dropLeading (String.ofList (dropHere extra.toList)) '/'

/-- A text with a slash at its end. -/
def closed (text : String) : String := if endsWith text "/" then text else text ++ "/"

theorem normalExclude?_eq (extra : String) :
    normalExclude? extra = if trimmed extra = "" then none else some (closed (trimmed extra)) := by
  rw [normalExclude?, trimmed, dropLeading, String.toList_ofList, closed, apply_ite some]

theorem startsWith_trimmed (extra : String) : startsWith (trimmed extra) "/" = false := by
  rw [startsWith_slash_eq_false_iff]
  exact head?_dropLeading _ '/'

theorem isFolderLead_closed (hne : text ≠ "") (h : startsWith text "/" = false) :
    IsFolderLead (closed text) := by
  unfold closed
  split
  · next hends => exact ⟨h, hends⟩
  · exact ⟨(startsWith_slash_append hne "/").trans h, endsWith_iff_append.mpr ⟨text, rfl⟩⟩

theorem isFolderLead_of_normalExclude? (h : normalExclude? text = some e) : IsFolderLead e := by
  rw [normalExclude?_eq] at h
  split at h
  · exact absurd h (by simp)
  · next hne =>
    obtain rfl := Option.some.inj h
    exact isFolderLead_closed hne (startsWith_trimmed text)

theorem isFolderLead_of_mem_excludesWith (h : e ∈ excludesWith extra) : IsFolderLead e := by
  have hfixed : ∀ e ∈ fixedExcludes, IsFolderLead e := by decide
  rcases mem_excludesWith_iff.mp h with h | h
  · exact hfixed e h
  · obtain ⟨text, -, htext⟩ := List.mem_filterMap.mp h
    exact isFolderLead_of_normalExclude? htext

theorem prefix_addExclude (all : List String) (text : String) : all <+: addExclude all text := by
  unfold addExclude
  split
  · exact List.prefix_rfl
  · split
    · exact List.prefix_rfl
    · exact List.prefix_append _ _

theorem nodup_addExclude (h : all.Nodup) (text : String) : (addExclude all text).Nodup := by
  unfold addExclude
  split
  · exact h
  · next e _ =>
    split
    · exact h
    · next hnew =>
      refine List.nodup_append.mpr ⟨h, by simp, ?_⟩
      intro x hx y hy heq
      rw [heq, List.mem_singleton.mp hy] at hx
      exact hnew hx

theorem prefix_foldl_addExclude (all extra : List String) : all <+: extra.foldl addExclude all := by
  induction extra generalizing all with
  | nil => exact List.prefix_rfl
  | cons text extra ih => exact (prefix_addExclude all text).trans (ih _)

theorem nodup_foldl_addExclude (h : all.Nodup) (extra : List String) :
    (extra.foldl addExclude all).Nodup := by
  induction extra generalizing all with
  | nil => exact h
  | cons text extra ih => exact ih (nodup_addExclude h text)

theorem isExcluded_excludesWith_cons (h : normalExclude? text = some e) (path : String) :
    isExcluded (excludesWith (text :: extra)) path =
      (startsWith path e || isExcluded (excludesWith extra) path) := by
  have hmem (x : String) : x ∈ excludesWith (text :: extra) ↔ x ∈ e :: excludesWith extra := by
    rw [List.mem_cons, mem_excludesWith_iff, mem_excludesWith_iff, contributed, contributed,
      List.filterMap_cons_some h, List.mem_cons, or_left_comm]
  rw [isExcluded_congr hmem]
  rfl

/-- The exclusions are the fixed ones and then others, each once and each a folder with a slash. They
exclude what lies in one of these folders, segment by segment, and an extra one excludes no path that
goes on from its folder's name by anything but a slash. -/
theorem excludesWith_boundaries (extra : List String) :
    fixedExcludes <+: excludesWith extra ∧ (excludesWith extra).Nodup ∧
      (∀ e ∈ excludesWith extra,
        startsWith e "/" = false ∧ ∃ folder, folder ≠ "" ∧ e = folder ++ "/") ∧
      (∀ path, isExcluded (excludesWith extra) path = true ↔
        ∃ folder, folder ++ "/" ∈ excludesWith extra ∧
          split folder '/' <+: split path '/' ∧ split folder '/' ≠ split path '/') ∧
      ∀ folder more, normalExclude? folder = some (folder ++ "/") → startsWith more "/" = false →
        isExcluded (excludesWith (folder :: extra)) (folder ++ more) =
          isExcluded (excludesWith extra) (folder ++ more) := by
  refine ⟨prefix_foldl_addExclude _ extra, nodup_foldl_addExclude (by decide) extra, ?_, ?_, ?_⟩
  · intro e he
    have hlead := isFolderLead_of_mem_excludesWith he
    exact ⟨hlead.relative, hlead.exists_folder⟩
  · intro path
    rw [isExcluded, List.any_eq_true]
    constructor
    · rintro ⟨e, he, hstarts⟩
      obtain ⟨folder, -, rfl⟩ := (isFolderLead_of_mem_excludesWith he).exists_folder
      exact ⟨folder, he, startsWith_append_slash_iff.mp hstarts⟩
    · rintro ⟨folder, he, hsegments⟩
      exact ⟨folder ++ "/", he, startsWith_append_slash_iff.mpr hsegments⟩
  · intro folder more hfolder hmore
    have hapart : startsWith (folder ++ more) (folder ++ "/") = startsWith more "/" :=
      startsWith_append_append folder more "/"
    rw [isExcluded_excludesWith_cons hfolder, hapart, hmore, Bool.false_or]

theorem excludesWith_boundaries_vendors :
    normalExclude? "public/vendor" = some ("public/vendor" ++ "/") ∧
      startsWith "s.css" "/" = false ∧
      isExcluded (excludesWith ["public/vendor"]) ("public/vendor" ++ "s.css") = false := by
  have hfolder : normalExclude? "public/vendor" = some ("public/vendor" ++ "/") := by decide
  have hmore : startsWith "s.css" "/" = false := by decide
  obtain ⟨-, -, -, -, hapart⟩ := excludesWith_boundaries []
  exact ⟨hfolder, hmore, (hapart _ _ hfolder hmore).trans (by decide)⟩

end Candidate

end UnusedAssets
