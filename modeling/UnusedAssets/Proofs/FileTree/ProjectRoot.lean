import UnusedAssets.ProjectRoot
import UnusedAssets.Proofs.FileTree.AddedFile

/-!
# Where projects are found

A project is looked for from a location upwards, by the names that mark a root. One more file makes
no difference to that unless such a name leads to it, or the path itself where the search begins
(`AddsFile.projectRoot?_eq`). Without links, the absolute path of a location leads nowhere else.
-/

namespace UnusedAssets

open Text FileTree

variable {t t' : FileTree} {here l m top cwd : Location} {name path : Bytes} {names : List Bytes}

namespace Location

theorem path_eq (h : ∀ n ∈ l, IsName n) : Location.path l = pathBelow "/" l := by
  by_cases hne : l = []
  · subst hne
    rfl
  · rw [← join_between "/" hne h, Path.join, Path.isAbsolute_between hne h]
    rfl

theorem isAbsolute_path (l : Location) : Path.isAbsolute (Location.path l) = true := rfl

theorem length_path_le (h : m <+: l) : (Location.path m).length ≤ (Location.path l).length := by
  obtain ⟨more, rfl⟩ := h
  by_cases hm : m = []
  · simp [hm, Location.path, between]
  · by_cases hmore : more = []
    · simp [hmore]
    · simp only [Location.path, between_append Path.slash hm hmore, List.length_cons,
        List.length_append]
      omega

theorem join_path (h : ∀ n ∈ top ++ [name], IsName n) :
    Path.join (Location.path top) name = Location.path (top ++ [name]) := by
  have htop : ∀ n ∈ top, IsName n := fun n hn => h n (List.mem_append_left _ hn)
  rw [path_eq h, path_eq htop, pathBelow_append]
  rfl

end Location

namespace FileTree

/-- What leads to a file is a proper name. -/
theorem isName_of_nameLeadsTo (hl : t.lookup? l ≠ some .folder) (h : t.NameLeadsTo here name l) :
    IsName name := by
  obtain ⟨links, hw⟩ := h
  cases hw with
  | stay _ folder walk =>
    cases walk
    exact absurd (isFolderAt_iff.mp folder) hl
  | up _ folder walk =>
    cases walk
    have hfolder := isFolderAt_iff.mp folder
    by_cases hhere : here = []
    · subst hhere
      exact absurd hfolder hl
    · exact absurd (lookup?_dropLast hfolder hhere) hl
  | enter entry _ _ => exact isName_of_entry entry
  | jump entry _ => exact isName_of_entry entry

/-- Without links only the name of a file itself leads to it. -/
theorem LinkFree.of_nameLeadsTo {file : Bytes} (ht : t.LinkFree)
    (hl : t.lookup? (top ++ [file]) ≠ some .folder) (h : t.NameLeadsTo here name (top ++ [file])) :
    here = top ∧ name = file := by
  have heq := ht.eq_of_nameLeadsTo (isName_of_nameLeadsTo hl h) h
  obtain ⟨htop, hfile⟩ := List.append_inj' heq rfl
  exact ⟨htop.symm, by simpa using hfile.symm⟩

theorem leads_path {e : Entry} (he : t.lookup? l = some e) (plain : ∀ target, e ≠ .link target) :
    t.Leads (origin cwd (Location.path l)) (steps (Location.path l)) [] l := by
  have hnames := isName_of_lookup? he
  rw [Location.path_eq hnames, origin_pathBelow cwd "/" hnames]
  by_cases hne : l = []
  · subst hne
    exact .stay rfl rfl (.done [])
  · rw [steps_pathBelow "/" hne hnames]
    exact leads_names he plain

/-- The absolute path of what stands in a tree leads there. -/
theorem resolve_path {e : Entry} (he : t.lookup? l = some e)
    (plain : ∀ target, e ≠ .link target) (hfault : pathFault? (Location.path l) = none) :
    t.resolve cwd (Location.path l) = .ok l :=
  resolve_eq_ok_iff.mpr ⟨hfault, [], by simp, leads_path he plain⟩

theorem entryAt_path {e : Entry} (he : t.lookup? l = some e)
    (plain : ∀ target, e ≠ .link target) (hfault : pathFault? (Location.path l) = none) :
    t.entryAt cwd (Location.path l) = .ok e :=
  entryAt_eq_ok_iff.mpr ⟨l, resolve_path he plain hfault, he⟩

/-- A name that is not there in a folder leads nowhere. -/
theorem pathExists_path_of_absent (hname : IsName name) (htop : t.lookup? top = some .folder)
    (habsent : t.lookup? (top ++ [name]) = none) :
    t.pathExists cwd (Location.path (top ++ [name])) = false := by
  have hnames : ∀ n ∈ top ++ [name], IsName n :=
    List.forall_mem_append.mpr ⟨isName_of_lookup? htop, by simpa using hname⟩
  rw [← Bool.not_eq_true, pathExists_iff, Location.path_eq hnames]
  rintro ⟨e, he⟩
  obtain ⟨m, hr, -⟩ := entryAt_eq_ok_iff.mp he
  obtain ⟨-, links, -, hw⟩ := resolve_eq_ok_iff.mp hr
  rw [origin_pathBelow cwd "/" hnames, steps_pathBelow "/" (by simp) hnames] at hw
  have hwalk : t.Leads [] (top ++ [name]) links m := hw
  have hwalk' : t.Leads [] top [] top := leads_names htop (by simp)
  obtain ⟨x, first, last, -, hfirst, hlast⟩ := hwalk.of_append
  obtain ⟨-, rfl⟩ := hwalk'.unique hfirst
  obtain ⟨f, hf⟩ := hlast.exists_first hname
  exact absurd (habsent.symm.trans hf) (by simp)

theorem LinkFree.eq_of_resolve_path (ht : t.LinkFree) (hnames : ∀ n ∈ l, IsName n)
    (hr : t.resolve cwd (Location.path l) = .ok m) : m = l := by
  rw [Location.path_eq hnames] at hr
  by_cases hne : l = []
  · subst hne
    exact Except.ok.inj (hr.symm.trans (resolve_top t cwd))
  · obtain ⟨-, links, -, hw⟩ := resolve_eq_ok_iff.mp hr
    rw [origin_pathBelow cwd "/" hnames, steps_pathBelow "/" hne hnames] at hw
    exact ht.leads_eq hw hnames

theorem exists_locate (h : t.projectRoot? cwd path = some top) : ∃ m, t.locate cwd path = .ok m := by
  cases hlocate : t.locate cwd path with
  | ok m => exact ⟨m, rfl⟩
  | error fault =>
    rw [projectRoot?, hlocate] at h
    exact absurd h (by simp)

def MarksNoRoot (t : FileTree) (l : Location) : Prop :=
  ∀ here, ∀ name ∈ rootMarkers, ¬ t.NameLeadsTo here name l

namespace AddsFile

theorem isProjectRoot_eq (h : t.AddsFile t' l) (hmarks : t'.MarksNoRoot l) (dir : Bytes) :
    t'.isProjectRoot cwd dir = t.isProjectRoot cwd dir := by
  have hproper : ∀ name ∈ rootMarkers, IsName name := by decide
  have hfiles : ∀ name ∈ rootMarkers,
      t'.isFile cwd (Path.join dir name) = t.isFile cwd (Path.join dir name) := fun name hname =>
    h.isFile_eq (hproper name hname) fun here => hmarks here name hname
  rw [isProjectRoot, isProjectRoot, Bool.eq_iff_iff, List.any_eq_true, List.any_eq_true]
  refine exists_congr fun name => and_congr_right fun hname => ?_
  rw [hfiles name hname]

theorem nearestRoot?_eq (h : t.AddsFile t' l) (hmarks : t'.MarksNoRoot l) (m : Location) :
    t'.nearestRoot? m = t.nearestRoot? m := by
  fun_induction nearestRoot? t m with
  | case1 m hroot =>
    rw [← h.isProjectRoot_eq hmarks] at hroot
    rw [nearestRoot?.eq_def, if_pos hroot]
  | case2 hroot =>
    rw [← h.isProjectRoot_eq hmarks] at hroot
    rw [nearestRoot?.eq_def, if_neg hroot, if_pos rfl]
  | case3 m hroot hm ih =>
    rw [← h.isProjectRoot_eq hmarks] at hroot
    rw [nearestRoot?.eq_def, if_neg hroot, if_neg hm, ih]

/-- The same root is found from where a path leads in both trees. -/
theorem projectRoot?_eq (h : t.AddsFile t' l) (hmarks : t'.MarksNoRoot l)
    (hpath : t.locate cwd path = .ok m ∨ t'.locate cwd path = .ok m ∧ m ≠ l) :
    t'.projectRoot? cwd path = t.projectRoot? cwd path := by
  have hboth : t.locate cwd path = .ok m ∧ t'.locate cwd path = .ok m := by
    rcases hpath with hm | ⟨hm, hne⟩
    · obtain ⟨hfault, hsize, links, hlimit, hw⟩ := locate_eq_ok_iff.mp hm
      exact ⟨hm, locate_eq_ok_iff.mpr ⟨hfault, hsize, links, hlimit, hw.of_grown h.growsTo⟩⟩
    · obtain ⟨hfault, hsize, links, hlimit, hw⟩ := locate_eq_ok_iff.mp hm
      exact ⟨locate_eq_ok_iff.mpr ⟨hfault, hsize, links, hlimit, h.leads_of_ne hw hne⟩, hm⟩
  rw [projectRoot?, projectRoot?, hboth.1, hboth.2]
  exact congrArg (fun root => some (root.getD m)) (h.nearestRoot?_eq hmarks m)

end AddsFile

end FileTree

end UnusedAssets
