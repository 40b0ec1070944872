import Mathlib.Data.List.Basic
import UnusedAssets.Candidate
import UnusedAssets.Proofs.Listing

/-!
# What the candidates are

The candidates of a project are the files that can be reached from its folder and have a path with
the ending of a candidate and no excluded beginning (`mem_candidates_iff`). That excluded folders
are not entered changes nothing: whatever lies in one has an excluded beginning itself, so that a
search that passes over them keeps the same paths (`sorted_reached_eq`).
-/

namespace UnusedAssets

open Text FileTree

namespace Project

/-- The folders of a project that can be opened one from within the other, none of them a link. -/
inductive Opens (p : Project) (top : Location) : List Bytes → Prop
  | root : Opens p top []
  | inner {names : List Bytes} {name : Bytes} (outer : Opens p top names)
      (folder : p.tree.lookup? (top ++ (names ++ [name])) = some .folder)
      (fits : (pathBelow p.root (names ++ [name])).length ≤ pathLimit) :
      Opens p top (names ++ [name])

/-- A text is that of the path to a file, or to a link that leads to a file, in a folder that can be
opened from the project's folder. -/
def HasFile (p : Project) (path : String) : Prop :=
  ∃ top names name, p.tree.resolve p.cwd p.root = .ok top ∧ p.Opens top names ∧
    path = Path.textOf (names ++ [name]) ∧
      ((∃ content executable,
          p.tree.lookup? (top ++ (names ++ [name])) = some (.file content executable)) ∨
        (∃ target, p.tree.lookup? (top ++ (names ++ [name])) = some (.link target)) ∧
          p.tree.isFile p.cwd (pathBelow p.root (names ++ [name])) = true)

variable {p : Project} {top : Location} {names : List Bytes}

theorem Opens.of_entry {name : Bytes} (folder : p.tree.lookup? (top ++ [name]) = some .folder)
    (fits : (pathBelow p.root [name]).length ≤ pathLimit) : p.Opens top [name] := by
  rw [← List.nil_append [name]]
  exact .inner .root folder fits

theorem opens_iff {e : Entry} {name : Bytes} (htop : p.tree.resolve p.cwd p.root = .ok top)
    (he : p.tree.lookup? (top ++ (names ++ [name])) = some e) :
    p.Opens top names ↔ (pathBelow p.root names).length ≤ pathLimit := by
  constructor
  · intro h
    cases h with
    | root =>
      exact length_le_of_resolve htop
    | inner _ _ fits => exact fits
  · intro h
    induction names using List.reverseRecOn generalizing e name with
    | nil => exact .root
    | append_singleton outer inner ih =>
      have hfolder : p.tree.lookup? (top ++ (outer ++ [inner])) = some .folder := by
        rw [← List.append_assoc top] at he
        exact lookup?_of_append he (by simp)
      have hname : IsName inner := isName_of_lookup? hfolder inner (by simp)
      refine .inner (ih hfolder ?_) hfolder h
      rw [pathBelow_append] at h
      exact Nat.le_trans (Nat.le_of_lt (length_lt_join _ hname)) h

theorem hasFile_iff {path : String} :
    p.HasFile path ↔ ∃ names ∈ p.tree.filesBelow p.cwd p.root, path = Path.textOf names := by
  constructor
  · intro hhas
    obtain ⟨top, names, name, htop, hopen, rfl, hentry⟩ := hhas
    obtain ⟨e, he, hcounts⟩ : ∃ e, p.tree.lookup? (top ++ (names ++ [name])) = some e ∧
        p.tree.countsAsFile p.cwd (pathBelow p.root (names ++ [name])) e = true := by
      rcases hentry with ⟨content, executable, he⟩ | ⟨⟨target, he⟩, hfile⟩
      · exact ⟨_, he, rfl⟩
      · exact ⟨_, he, hfile⟩
    have hlisted : isListed p.root (names ++ [name]) = true := by
      simpa [isListed] using (opens_iff htop he).mp hopen
    exact ⟨_, mem_filesBelow_iff.mpr ⟨by simp, hlisted, top, e, htop, he, hcounts⟩, rfl⟩
  · intro hlisted
    obtain ⟨all, hmem, rfl⟩ := hlisted
    obtain ⟨hne, hlisted, top, e, htop, he, hcounts⟩ := mem_filesBelow_iff.mp hmem
    obtain ⟨names, name, rfl⟩ : ∃ names name, all = names ++ [name] :=
      ⟨all.dropLast, all.getLast hne, (List.dropLast_concat_getLast hne).symm⟩
    refine ⟨top, names, name, htop, ?_, rfl, ?_⟩
    · exact (opens_iff htop he).mpr (by simpa [isListed] using hlisted)
    · cases e with
      | file content executable => exact .inl ⟨content, executable, he⟩
      | folder => exact absurd hcounts (by simp [countsAsFile])
      | link target => exact .inr ⟨⟨target, he⟩, hcounts⟩

theorem hasFile_of_lookup {content : Bytes} {executable : Bool}
    (htop : p.tree.resolve p.cwd p.root = .ok top) (hne : names ≠ [])
    (hlisted : isListed p.root names = true)
    (hfile : p.tree.lookup? (top ++ names) = some (.file content executable)) :
    p.HasFile (Path.textOf names) :=
  hasFile_iff.mpr ⟨names, mem_filesBelow_iff.mpr ⟨hne, hlisted, top, _, htop, hfile, rfl⟩, rfl⟩

end Project

namespace Candidate

/-- Of the endings of candidates only that of a view ends like a PHP file. -/
theorem hasName_iff {path : String} :
    hasName path = true ↔ ∃ suffix ∈ suffixes, endsWith path suffix = true := by
  have apart : ∀ suffix ∈ suffixes, suffix = ".blade.php" ∨
      (¬ suffix.toList <:+ ".php".toList ∧ ¬ ".php".toList <:+ suffix.toList) := by decide
  simp only [hasName, Bool.and_eq_true, List.any_eq_true, Bool.not_eq_true',
    ← Bool.not_eq_true]
  constructor
  · exact fun h => h.2
  · intro h
    refine ⟨?_, h⟩
    intro hboth
    obtain ⟨hphp, hblade⟩ := hboth
    obtain ⟨suffix, hmem, hends⟩ := h
    rcases apart suffix hmem with rfl | ⟨hno, hno'⟩
    · exact hblade hends
    · simp only [endsWith, List.isSuffixOf_iff_suffix] at hphp hends
      rcases List.suffix_or_suffix_of_suffix hends hphp with hs | hs
      · exact hno hs
      · exact hno' hs

theorem isExcluded_eq_false_iff {excludes : List String} {path : String} :
    isExcluded excludes path = false ↔ ∀ e ∈ excludes, startsWith path e = false := by
  simp [isExcluded]

theorem isExcluded_of_folder {excludes : List String} {folder more : List Bytes}
    (hf : folder ≠ []) (hm : more ≠ [])
    (h : isExcluded excludes (Path.textOf folder ++ "/") = true) :
    isExcluded excludes (Path.textOf (folder ++ more)) = true := by
  obtain ⟨e, he, hs⟩ := List.any_eq_true.mp h
  refine List.any_eq_true.mpr ⟨e, he, ?_⟩
  obtain ⟨rest, hrest⟩ := startsWith_iff_append.mp hs
  rw [Path.textOf, List.map_append, joinWith_append "/" (by simpa) (by simpa), ← Path.textOf, hrest,
    String.append_assoc]
  exact startsWith_iff_append.mpr ⟨_, rfl⟩

theorem mem_enclosing_iff {names outer : List Bytes} :
    outer ∈ enclosing names ↔ outer ≠ [] ∧ ∃ inner, inner ≠ [] ∧ names = outer ++ inner := by
  simp only [enclosing, List.mem_map, List.mem_range]
  constructor
  · intro hmem
    obtain ⟨n, hn, rfl⟩ := hmem
    refine ⟨?_, names.drop (n + 1), ?_, (List.take_append_drop _ _).symm⟩
    · rw [ne_eq, ← List.length_eq_zero_iff, List.length_take]
      omega
    · rw [ne_eq, ← List.length_eq_zero_iff, List.length_drop]
      omega
  · intro hmem
    obtain ⟨hne, inner, hinner, rfl⟩ := hmem
    have hlength := List.length_pos_iff.mpr hne
    have hlength' := List.length_pos_iff.mpr hinner
    refine ⟨outer.length - 1, by rw [List.length_append]; omega, ?_⟩
    rw [Nat.sub_add_cancel hlength, List.take_left]

theorem isReached_of_not_isExcluded {p : Project} {excludes : List String} {names : List Bytes}
    (hnames : ∀ n ∈ names, IsName n)
    (h : isExcluded excludes (Path.textOf names) = false) :
    isReached p excludes names = true := by
  rw [isReached, List.all_eq_true]
  intro folder hfolder
  obtain ⟨hne, inner, hinner, rfl⟩ := mem_enclosing_iff.mp hfolder
  rw [isEntered, Project.nameOf?,
    relativeTo?_pathBelow p.root hne fun m hm => hnames m (List.mem_append_left inner hm)]
  simp only [Bool.not_eq_true', ← Bool.not_eq_true]
  intro hex
  rw [isExcluded_of_folder hne hinner hex] at h
  exact absurd h (by simp)

end Candidate

open Candidate

namespace Project

variable {p : Project} {excludes : List String} {path : String} {reached : List Bytes → Bool}

theorem nameOf?_of_mem_filesBelow {names : List Bytes} (h : names ∈ p.tree.filesBelow p.cwd p.root) :
    p.nameOf? (pathBelow p.root names) = some (Path.textOf names) :=
  relativeTo?_pathBelow p.root (mem_filesBelow_iff.mp h).1 (isName_of_mem_filesBelow h)

/-- The paths of the files that are candidates by name and not excluded, in ascending order. -/
def namedCandidates (p : Project) (excludes : List String) : List String :=
  sorted <| ((p.tree.filesBelow p.cwd p.root).map Path.textOf).filter fun name =>
    !isExcluded excludes name && hasName name

/-- Files may be passed over as long as their paths are excluded. -/
theorem sorted_reached_eq (h : ∀ names, (∀ n ∈ names, IsName n) →
    isExcluded excludes (Path.textOf names) = false → reached names = true) :
    sorted ((((p.tree.filesBelow p.cwd p.root).filter reached).filterMap fun names =>
      p.nameOf? (pathBelow p.root names)).filter fun name =>
        !isExcluded excludes name && hasName name) = p.namedCandidates excludes := by
  have hnamed : (((p.tree.filesBelow p.cwd p.root).filter reached).filterMap fun names =>
      p.nameOf? (pathBelow p.root names)) =
        ((p.tree.filesBelow p.cwd p.root).filter reached).map Path.textOf := by
    rw [← List.filterMap_eq_map]
    exact List.filterMap_congr fun names hmem =>
      nameOf?_of_mem_filesBelow (List.mem_filter.mp hmem).1
  rw [hnamed, namedCandidates, List.filter_map, List.filter_map, List.filter_filter]
  congr 2
  refine List.filter_congr fun names hmem => ?_
  rw [Bool.eq_iff_iff]
  simp only [Function.comp_apply, Bool.and_eq_true, Bool.not_eq_true', and_iff_left_iff_imp]
  exact fun hname => h names (isName_of_mem_filesBelow hmem) hname.1

theorem candidates_eq (p : Project) (excludes : List String) :
    p.candidates excludes = p.namedCandidates excludes :=
  sorted_reached_eq fun _ hnames => isReached_of_not_isExcluded hnames

theorem mem_candidates : path ∈ p.candidates excludes ↔
    (∃ names ∈ p.tree.filesBelow p.cwd p.root, path = Path.textOf names) ∧
      hasName path = true ∧ isExcluded excludes path = false := by
  rw [candidates_eq, namedCandidates, mem_sorted, List.mem_filter, List.mem_map, Bool.and_eq_true,
    Bool.not_eq_true', and_comm (a := isExcluded _ _ = _)]
  simp only [eq_comm]

/-- The candidates are the files with the ending of a candidate and no excluded beginning. -/
theorem mem_candidates_iff : path ∈ p.candidates excludes ↔ p.HasFile path ∧
    (∃ suffix ∈ suffixes, endsWith path suffix = true) ∧
      ∀ e ∈ excludes, startsWith path e = false := by
  rw [mem_candidates, hasFile_iff, hasName_iff, isExcluded_eq_false_iff]

end Project

end UnusedAssets
