import UnusedAssets.Proofs.Candidate.Pruning
import UnusedAssets.Proofs.Removal.Exactness

/-!
# Complete listings

A listing shows every file to which names lead through folders that can be opened, and nothing else,
in the order of a walk that takes the entries of each folder by name (`listings_complete`). A folder
whose path is too long to be handed over is not opened, so what stands in it is not listed
(`listing_passes_over_far_file`).
-/

namespace UnusedAssets

open Std Text

/-- Lists are in order as soon as their elements are. -/
theorem lt_of_compare_eq_lt {α : Type} [Ord α] [LT α] [LawfulEqOrd α]
    (helements : ∀ a b : α, compare a b = .lt → a < b) {as bs : List α}
    (h : compare as bs = .lt) : as < bs := by
  induction as generalizing bs with
  | nil =>
    cases bs with
    | nil => exact absurd h (by simp)
    | cons b bs => exact List.nil_lt_cons _ _
  | cons a as ih =>
    cases bs with
    | nil => exact absurd h (by simp)
    | cons b bs =>
      rw [List.compare_eq_compareLex, List.compareLex_cons_cons, Ordering.then_eq_lt,
        ← List.compare_eq_compareLex] at h
      rw [List.cons_lt_cons_iff]
      rcases h with hlt | ⟨heq, hrest⟩
      · exact .inl (helements a b hlt)
      · exact .inr ⟨LawfulEqOrd.eq_of_compare heq, ih hrest⟩

namespace Path

/-- One path comes before another when they are compared component by component, by bytes. -/
def Precedes (path path' : Bytes) : Prop := components path < components path'

/-- Below a folder, paths are in the order of the names that lead to them. -/
theorem precedes_pathBelow (dir : Bytes) {names names' : List Bytes}
    (hnames : ∀ n ∈ names, IsName n) (hnames' : ∀ n ∈ names', IsName n)
    (h : compare names names' = .lt) :
    Precedes (FileTree.pathBelow dir names) (FileTree.pathBelow dir names') := by
  have hall : compare (components dir ++ names) (components dir ++ names') = .lt :=
    (FileTree.compare_append_left _ names names').trans h
  have hbytes (a b : Bytes) (hab : compare a b = .lt) : a < b :=
    lt_of_compare_eq_lt (fun _ _ hbyte => compare_eq_lt.mp hbyte) hab
  rw [Precedes, FileTree.components_pathBelow dir hnames, FileTree.components_pathBelow dir hnames']
  exact lt_of_compare_eq_lt hbytes hall

end Path

namespace FileTree

variable {t : FileTree} {cwd : Location} {dir path name : Bytes} {tail : String}
  {names : List Bytes} {files : List (List Bytes)}

/-- From a folder some names lead to a folder, through folders that can be opened one from within
the other, and there a file stands under the name `name`, or a link whose path leads to one. -/
def Shows (t : FileTree) (cwd : Location) (dir : Bytes) (names : List Bytes) (name : Bytes) :
    Prop :=
  ∃ top, t.resolve cwd dir = .ok top ∧ Project.Opens ⟨t, cwd, dir⟩ top names ∧
    ((∃ content executable,
        t.lookup? (top ++ (names ++ [name])) = some (.file content executable)) ∨
      (∃ target, t.lookup? (top ++ (names ++ [name])) = some (.link target)) ∧
        t.isFile cwd (pathBelow dir (names ++ [name])) = true)

theorem mem_filesBelow_concat_iff :
    names ++ [name] ∈ t.filesBelow cwd dir ↔ t.Shows cwd dir names name := by
  have hopens {top : Location} {e : Entry} (htop : t.resolve cwd dir = .ok top)
      (he : t.lookup? (top ++ (names ++ [name])) = some e) :
      isListed dir (names ++ [name]) = true ↔ Project.Opens ⟨t, cwd, dir⟩ top names := by
    rw [isListed, List.dropLast_concat, decide_eq_true_eq]
    exact (Project.opens_iff (p := ⟨t, cwd, dir⟩) htop he).symm
  rw [mem_filesBelow_iff]
  constructor
  · rintro ⟨-, hlisted, top, e, htop, he, hcounts⟩
    refine ⟨top, htop, (hopens htop he).mp hlisted, ?_⟩
    cases e with
    | file content executable => exact .inl ⟨content, executable, he⟩
    | folder => exact absurd hcounts (by simp [countsAsFile])
    | link target => exact .inr ⟨⟨target, he⟩, hcounts⟩
  · rintro ⟨top, htop, hopen, ⟨content, executable, he⟩ | ⟨⟨target, he⟩, hfile⟩⟩
    · exact ⟨by simp, (hopens htop he).mpr hopen, top, _, htop, he, rfl⟩
    · exact ⟨by simp, (hopens htop he).mpr hopen, top, _, htop, he, hfile⟩

theorem exists_concat_of_mem_filesBelow (h : names ∈ t.filesBelow cwd dir) :
    ∃ outer last, names = outer ++ [last] ∧ t.Shows cwd dir outer last := by
  have hne := (mem_filesBelow_iff.mp h).1
  refine ⟨names.dropLast, names.getLast hne, (List.dropLast_concat_getLast hne).symm, ?_⟩
  rwa [← mem_filesBelow_concat_iff, List.dropLast_concat_getLast hne]

theorem mem_filesWithSuffix_iff : path ∈ t.filesWithSuffix cwd dir tail ↔ ∃ names name,
    t.Shows cwd dir names name ∧ endsWith (decodeLenient name) tail = true ∧
      path = pathBelow dir (names ++ [name]) := by
  simp only [filesWithSuffix, List.mem_map, List.mem_filter]
  constructor
  · rintro ⟨all, ⟨hmem, htail⟩, rfl⟩
    obtain ⟨names, name, rfl, hshows⟩ := exists_concat_of_mem_filesBelow hmem
    exact ⟨names, name, hshows, by simpa using htail, rfl⟩
  · rintro ⟨names, name, hshows, htail, rfl⟩
    exact ⟨names ++ [name], ⟨mem_filesBelow_concat_iff.mpr hshows, by simpa using htail⟩, rfl⟩

theorem mem_filesIn_iff : path ∈ t.filesIn cwd dir ↔ ∃ name,
    t.Shows cwd dir [] name ∧ path = Path.join dir name := by
  simp only [filesIn, List.mem_map, List.mem_filter, decide_eq_true_eq]
  constructor
  · rintro ⟨all, ⟨hmem, hlength⟩, rfl⟩
    obtain ⟨names, name, rfl, hshows⟩ := exists_concat_of_mem_filesBelow hmem
    obtain rfl : names = [] := by simpa using hlength
    exact ⟨name, hshows, rfl⟩
  · rintro ⟨name, hshows, rfl⟩
    exact ⟨[name], ⟨mem_filesBelow_concat_iff.mpr hshows, rfl⟩, rfl⟩

theorem filesBelow_eq_nil (h : t.isFolder cwd dir = false) : t.filesBelow cwd dir = [] := by
  rw [List.eq_nil_iff_forall_not_mem]
  intro names hmem
  obtain ⟨hne, -, top, e, htop, he, -⟩ := mem_filesBelow_iff.mp hmem
  rw [isFolder_iff.mpr ⟨top, htop, lookup?_of_append he hne⟩] at h
  exact absurd h (by decide)

/-- Whichever of its files are listed, a listing of a folder is in order. -/
theorem ascending_listed (h : files.Sublist (t.filesBelow cwd dir)) :
    (files.map (pathBelow dir)).Pairwise Path.Precedes := by
  have hnames : ∀ names ∈ files, ∀ n ∈ names, IsName n := fun names hmem =>
    isName_of_mem_filesBelow (h.subset hmem)
  rw [List.pairwise_map]
  refine ((ascending_filesBelow t cwd dir).sublist h).imp_of_mem fun {names names'} hmem hmem' => ?_
  exact Path.precedes_pathBelow dir (hnames names hmem) (hnames names' hmem')

/-- Listings show exactly the files that can be come to through folders that can be opened, each
once and in the order of their components; nothing is listed where no folder is. -/
theorem listings_complete (t : FileTree) (cwd : Location) (dir : Bytes) (tail : String) :
    (∀ path, path ∈ t.filesWithSuffix cwd dir tail ↔ ∃ names name,
      t.Shows cwd dir names name ∧ endsWith (decodeLenient name) tail = true ∧
        path = pathBelow dir (names ++ [name])) ∧
    (∀ path, path ∈ t.filesIn cwd dir ↔ ∃ name,
      t.Shows cwd dir [] name ∧ path = Path.join dir name) ∧
    (t.filesWithSuffix cwd dir tail).Pairwise Path.Precedes ∧
    (t.filesIn cwd dir).Pairwise Path.Precedes ∧
    (t.isFolder cwd dir = false →
      t.filesWithSuffix cwd dir tail = [] ∧ t.filesIn cwd dir = []) ∧
    t.filesBelow cwd dir = Project.filesMet ⟨t, cwd, dir⟩ fun _ => true := by
  refine ⟨fun _ => mem_filesWithSuffix_iff, fun _ => mem_filesIn_iff, ?_, ?_, fun h => ?_,
    (Project.filesMet_all ⟨t, cwd, dir⟩).symm⟩
  · exact ascending_listed List.filter_sublist
  · exact ascending_listed List.filter_sublist
  · rw [filesWithSuffix, filesIn, filesBelow_eq_nil h]
    exact ⟨rfl, rfl⟩

/-- A file in a folder is not listed if the folder's path is too long. -/
theorem listing_passes_over_far_file :
    Project.farAway.tree.resolve [] (Project.slashes pathLimit) = .ok [] ∧
    Project.farAway.tree.lookup? ["a"] = some .folder ∧
    Project.farAway.tree.lookup? ["a", "x.css"] = some (.file [] false) ∧
    endsWith "x.css" ".css" = true ∧
    Project.farAway.tree.filesWithSuffix [] (Project.slashes pathLimit) ".css" = [] := by
  refine ⟨Project.resolve_farAway, rfl, by decide, by decide, ?_⟩
  rw [List.eq_nil_iff_forall_not_mem]
  intro path hpath
  obtain ⟨names, ⟨hmem, -⟩, -⟩ := by
    simpa only [filesWithSuffix, List.mem_map, List.mem_filter] using hpath
  exact Project.not_hasFile_farAway _ (Project.hasFile_iff.mpr ⟨names, hmem, rfl⟩)

end FileTree

end UnusedAssets
