import UnusedAssets.Proofs.Candidate.FarFolders
import UnusedAssets.Proofs.FileTree.Descent
import UnusedAssets.Proofs.FileTree.LinkFree
import UnusedAssets.Proofs.Text.ByteOrder

/-!
# Walks that keep out of folders

A walk of a project may keep out of folders. As long as it goes into every folder that holds a file
without an excluded beginning, it finds the same candidates (`candidatesMet_eq`); so keeping out of
the excluded folders loses none (`candidates_of_walk`).
-/

namespace UnusedAssets

open Text FileTree Candidate

variable {p : Project} {excludes : List String} {enters : List Bytes → Bool}
  {names outer : List Bytes} {dir : Bytes}

/-- A file is listed if each folder on the way to it can be opened. -/
theorem FileTree.isListed_iff (hdir : dir.length ≤ pathLimit)
    (hnames : ∀ n ∈ names, IsName n) : isListed dir names = true ↔
      ∀ outer ∈ enclosing names, (pathBelow dir outer).length ≤ pathLimit := by
  rw [isListed, decide_eq_true_eq]
  constructor
  · intro hlast outer houter
    obtain ⟨-, inner, hinner, rfl⟩ := mem_enclosing_iff.mp houter
    rw [List.dropLast_append_of_ne_nil hinner, pathBelow_append] at hlast
    by_cases hnone : inner.dropLast = []
    · rwa [hnone] at hlast
    · have hlonger := length_lt_pathBelow (pathBelow dir outer) hnone fun n hn =>
        hnames n (List.mem_append_right _ (List.dropLast_subset _ hn))
      omega
  · intro hall
    by_cases hlast : names.dropLast = []
    · rwa [hlast]
    · have hne : names ≠ [] := fun hnil => hlast (by rw [hnil]; rfl)
      exact hall _ (mem_enclosing_iff.mpr
        ⟨hlast, [names.getLast hne], by simp, (List.dropLast_concat_getLast hne).symm⟩)

namespace Project

/-- The files that a walk of the project meets which goes into the folders that pass a test and can be
opened by their paths. -/
def filesMet (p : Project) (enters : List Bytes → Bool) : List (List Bytes) :=
  match p.tree.resolve p.cwd p.root with
  | .error _ => []
  | .ok top =>
    let opens (names : List Bytes) : Bool := (pathBelow p.root names).length ≤ pathLimit
    ((p.tree.descend (fun names => opens names && enters names) top).filter fun e =>
      p.tree.countsAsFile p.cwd (pathBelow p.root e.1) e.2).map (·.1)

/-- The paths of the files that such a walk meets and that have the name of a candidate and no
excluded beginning, sorted by their bytes. -/
def candidatesMet (p : Project) (excludes : List String) (enters : List Bytes → Bool) :
    List String :=
  sortedByBytes <|
    ((p.filesMet enters).filterMap fun names => p.nameOf? (pathBelow p.root names)).filter
      fun name => hasName name && !isExcluded excludes name

theorem mem_filesMet_iff : names ∈ p.filesMet enters ↔
    names ∈ p.tree.filesBelow p.cwd p.root ∧ (enclosing names).all enters = true := by
  rw [mem_filesBelow_iff, filesMet]
  cases htop : p.tree.resolve p.cwd p.root with
  | error fault => simp
  | ok top =>
    have hopens {names : List Bytes} (hnames : ∀ n ∈ names, IsName n) :
        ((enclosing names).all fun outer =>
          decide ((pathBelow p.root outer).length ≤ pathLimit) && enters outer) = true ↔
            isListed p.root names = true ∧ (enclosing names).all enters = true := by
      simp only [isListed_iff (length_le_of_resolve htop) hnames, List.all_eq_true,
        Bool.and_eq_true, decide_eq_true_eq, forall_and]
    simp only [List.mem_map, List.mem_filter, Prod.exists, Except.ok.injEq, mem_descend_iff,
      mem_below_iff]
    constructor
    · intro hmet
      obtain ⟨names, e, ⟨⟨⟨hne, he⟩, hall⟩, hcounts⟩, rfl⟩ := hmet
      have hnames := isName_of_lookup? he
      obtain ⟨hlisted, hall⟩ := (hopens fun n hn => hnames n (List.mem_append_right _ hn)).mp hall
      exact ⟨⟨hne, hlisted, top, e, rfl, he, hcounts⟩, hall⟩
    · intro hlisted
      obtain ⟨⟨hne, hlisted, top, e, rfl, he, hcounts⟩, hall⟩ := hlisted
      have hnames := isName_of_lookup? he
      have hall := (hopens fun n hn => hnames n (List.mem_append_right _ hn)).mpr ⟨hlisted, hall⟩
      exact ⟨names, e, ⟨⟨⟨hne, he⟩, hall⟩, hcounts⟩, rfl⟩

theorem ascending_filesMet (p : Project) (enters : List Bytes → Bool) :
    (p.filesMet enters).Pairwise (fun a b => compare a b = .lt) := by
  rw [filesMet]
  split
  · exact .nil
  · exact (ascending_descend _ _ _).sublist (List.filter_sublist.map _)

theorem filesMet_eq (p : Project) (enters : List Bytes → Bool) : p.filesMet enters =
    (p.tree.filesBelow p.cwd p.root).filter fun names => (enclosing names).all enters := by
  refine OrderedSet.eq_of_mem_iff (ascending_filesMet p enters)
    ((ascending_filesBelow p.tree p.cwd p.root).filter _) fun names => ?_
  rw [mem_filesMet_iff, List.mem_filter]

/-- A walk that goes into every folder meets what is listed. -/
theorem filesMet_all (p : Project) :
    p.filesMet (fun _ => true) = p.tree.filesBelow p.cwd p.root := by
  rw [filesMet_eq]
  exact List.filter_eq_self.mpr fun names _ => by simp

/-- A walk finds all candidates if it goes into each folder with a file that is not excluded. -/
theorem candidatesMet_eq (h : ∀ names, (∀ n ∈ names, IsName n) →
    isExcluded excludes (Path.textOf names) = false → (enclosing names).all enters = true) :
    p.candidatesMet excludes enters = p.candidates excludes := by
  have htest : (fun name => hasName name && !isExcluded excludes name) = fun name =>
      !isExcluded excludes name && hasName name := funext fun _ => Bool.and_comm _ _
  rw [candidatesMet, ← sorted_eq_sortedByBytes, htest, filesMet_eq, sorted_reached_eq h,
    candidates_eq]

/-- The files that have the name of a candidate stand among the candidates one by one. -/
theorem count_candidates {path : String} (h : path ∈ p.candidates excludes) :
    (p.candidates excludes).count path =
      (p.filesMet fun _ => true).countP fun names => Path.textOf names = path := by
  obtain ⟨-, hname, hexcluded⟩ := mem_candidates.mp h
  rw [candidates_eq, namedCandidates, (sorted_perm _).count_eq,
    List.count_filter (by simp [hname, hexcluded]), filesMet_all, List.count_eq_countP,
    List.countP_map]
  rfl

/-- A path in which nothing was replaced is that of one file. -/
theorem count_candidates_eq_one {path : String} (h : path ∈ p.candidates excludes)
    (hread : replacement ∉ path.toList) : (p.candidates excludes).count path = 1 := by
  obtain ⟨⟨names, hmem, rfl⟩, -⟩ := mem_candidates.mp h
  have hsame : ∀ more ∈ p.tree.filesBelow p.cwd p.root,
      decide (Path.textOf more = Path.textOf names) = true ↔ (more == names) = true := by
    intro more hmore
    rw [decide_eq_true_eq, beq_iff_eq]
    refine ⟨fun htext => ?_, congrArg Path.textOf⟩
    exact (Path.textOf_inj (mem_filesBelow_iff.mp hmem).1 (isName_of_mem_filesBelow hmem)
      (mem_filesBelow_iff.mp hmore).1 (isName_of_mem_filesBelow hmore) hread htext.symm).symm
  have hnodup := OrderedSet.nodup_of_ascending (ascending_filesBelow p.tree p.cwd p.root)
  rw [count_candidates h, filesMet_all, List.countP_congr hsame, ← List.count_eq_countP]
  exact List.count_eq_one_of_mem hnodup hmem

/-- From the project's folder, real folders lead to a file. -/
def IsBehindFolders (p : Project) (names : List Bytes) : Prop :=
  ∃ top, p.tree.resolve p.cwd p.root = .ok top ∧ ∀ outer inner, inner ≠ [] →
    names = outer ++ inner → p.tree.lookup? (top ++ outer) = some .folder

theorem isBehindFolders_of_met (h : names ∈ p.filesMet enters) : p.IsBehindFolders names := by
  obtain ⟨-, -, top, e, htop, he, -⟩ := mem_filesBelow_iff.mp (mem_filesMet_iff.mp h).1
  refine ⟨top, htop, fun outer inner hinner hnames => ?_⟩
  rw [hnames, ← List.append_assoc] at he
  exact lookup?_of_append he hinner

/-- A walk that keeps out of the excluded folders finds the same candidates as a walk of the whole
project, in ascending order: each path as often as files have it, and no path twice if no two files
that are met have the same, which takes names in which something was replaced. None has an excluded
beginning or lies behind a link to a folder. -/
theorem candidates_of_walk (p : Project) (excludes : List String) :
    p.candidates excludes = p.candidatesMet excludes (isEntered p excludes) ∧
    p.candidates excludes = p.candidatesMet excludes (fun _ => true) ∧
    ((p.candidates excludes).map encode).Pairwise (· ≤ ·) ∧
    (∀ path ∈ p.candidates excludes, (p.candidates excludes).count path =
      (p.filesMet fun _ => true).countP fun names => Path.textOf names = path) ∧
    (∀ path ∈ p.candidates excludes, replacement ∉ path.toList →
      (p.candidates excludes).count path = 1) ∧
    (((p.filesMet fun _ => true).map Path.textOf).Nodup →
      ((p.candidates excludes).map encode).Pairwise (· < ·)) ∧
    ∀ path ∈ p.candidates excludes, (∀ e ∈ excludes, startsWith path e = false) ∧
      (∃ names ∈ p.filesMet fun _ => true, path = Path.textOf names) ∧
      ∀ names ∈ p.filesMet fun _ => true, path = Path.textOf names → p.IsBehindFolders names := by
  refine ⟨?_, ?_, ?_, ?_, ?_, ?_, ?_⟩
  · exact (candidatesMet_eq fun names hnames => isReached_of_not_isExcluded hnames).symm
  · exact (candidatesMet_eq fun names _ _ => by simp).symm
  · exact List.pairwise_map.mpr (pairwise_sorted _)
  · exact fun path => count_candidates
  · exact fun path => count_candidates_eq_one
  · intro hnodup
    rw [filesMet_all] at hnodup
    rw [candidates_eq, List.pairwise_map]
    exact ascending_sorted (hnodup.filter _)
  · intro path hpath
    obtain ⟨⟨names, hmem, rfl⟩, -, hexcluded⟩ := mem_candidates.mp hpath
    refine ⟨isExcluded_eq_false_iff.mp hexcluded, ⟨names, mem_filesMet_iff.mpr ⟨hmem, by simp⟩, rfl⟩,
      fun names' hmet _ => isBehindFolders_of_met hmet⟩

/-- A name that is no text; for every byte that begins no character it is read alike. -/
def twinName (b : UInt8) : Bytes := encode "a" ++ b :: encode ".css"

/-- A project with two files whose names are read alike. -/
def twins : Project where
  tree := .ofEntries
    [(["routes"], .folder), ([encode "routes", twinName 0xFE], .file [] false),
      ([encode "routes", twinName 0xFF], .file [] false)]
    (by decide)
  cwd := []
  root := "/"

theorem linkFree_twins : twins.tree.LinkFree := .of_entries (by simp [twins])

theorem filesBelow_twins : twins.tree.filesBelow twins.cwd twins.root =
    [[encode "routes", twinName 0xFE], [encode "routes", twinName 0xFF]] := by
  have hentries : twins.tree.entriesBelow twins.cwd twins.root = twins.tree.below [] := by
    rw [entriesBelow, twins, resolve_top]
    rfl
  rw [linkFree_twins.filesBelow_eq, hentries]
  decide

theorem not_nodup_candidates_twins : ¬ (twins.candidates []).Nodup := by
  rw [candidates_eq, namedCandidates, filesBelow_twins, (sorted_perm _).nodup_iff]
  decide

/-- Of the files of a whole project, two can stand among the candidates with one path, and one that
is too far away does not. -/
theorem candidates_of_twins_and_farAway :
    (twins.tree.lookup? [encode "routes", twinName 0xFE] = some (.file [] false) ∧
      twins.tree.lookup? [encode "routes", twinName 0xFF] = some (.file [] false) ∧
      ¬ ((twins.candidates []).map encode).Pairwise (· < ·)) ∧
    farAway.tree.resolve farAway.cwd farAway.root = .ok [] ∧
      farAway.tree.lookup? ["a"] = some .folder ∧
      farAway.tree.lookup? ["a", "x.css"] = some (.file [] false) ∧
      hasName "a/x.css" = true ∧ "a/x.css" ∉ farAway.candidates [] := by
  refine ⟨⟨by decide, by decide, fun hascends => ?_⟩, resolve_farAway,
    by decide, by decide, by decide, fun hmem => ?_⟩
  · exact not_nodup_candidates_twins (List.Nodup.of_map encode
      (hascends.imp fun {a b} (hlt : a < b) (heq : a = b) => List.lt_irrefl b (heq ▸ hlt)))
  · exact not_hasFile_farAway _ (mem_candidates_iff.mp hmem).1

end Project

end UnusedAssets
