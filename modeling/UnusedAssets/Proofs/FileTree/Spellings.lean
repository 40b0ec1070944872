import UnusedAssets.Proofs.FileTree.Growth
import UnusedAssets.Proofs.FileTree.PathsBelow

/-!
# Spellings of a folder

A folder has many paths: with slashes at the end, with `.` and `..` on the way, through links. With
names behind them they lead to the same, unless one of them becomes too long or leads through too
many links (`resolve_pathBelow_iff_isWithinLimits`). Where two of them lead alike to all that is
below the folder, the same files are below them (`LeadAlike.filesBelow_eq`).
-/

namespace UnusedAssets.FileTree

open Text

variable {t : FileTree} {cwd top m l : Location} {dir dir' : Bytes} {names : List Bytes}
  {e : Entry}

/-- A path is no longer than a path may be and leads through no more links than are followed. -/
def IsWithinLimits (t : FileTree) (cwd : Location) (path : Bytes) : Prop :=
  path.length ≤ pathLimit ∧
    ∀ links l, t.Leads (origin cwd path) (steps path) links l → links.length ≤ linkLimit

theorem isWithinLimits_of_leads {path : Bytes} {links : List Location}
    (hsize : path.length ≤ pathLimit) (hlimit : links.length ≤ linkLimit)
    (h : t.Leads (origin cwd path) (steps path) links l) : t.IsWithinLimits cwd path := by
  refine ⟨hsize, fun links' l' h' => ?_⟩
  obtain ⟨rfl, -⟩ := h.unique h'
  exact hlimit

theorem isWithinLimits_of_resolve (h : t.resolve cwd dir = .ok l) : t.IsWithinLimits cwd dir := by
  obtain ⟨-, links, hlimit, hwalk⟩ := resolve_eq_ok_iff.mp h
  exact isWithinLimits_of_leads (length_le_of_resolve h) hlimit hwalk

/-- What stands below a folder and is no link leaves only the length to count. -/
theorem isWithinLimits_of_plain (htop : t.resolve cwd dir = .ok top) (hne : names ≠ [])
    (he : t.lookup? (top ++ names) = some e) (plain : ∀ target, e ≠ .link target)
    (hsize : (pathBelow dir names).length ≤ pathLimit) :
    t.IsWithinLimits cwd (pathBelow dir names) := by
  obtain ⟨-, links, hlimit, hwalk⟩ := resolve_eq_ok_iff.mp htop
  exact isWithinLimits_of_leads hsize hlimit (hwalk.append_names hne he plain)

theorem resolve_pathBelow_iff_isWithinLimits (htop : t.resolve cwd dir = .ok top) (hne : names ≠ [])
    (hnames : ∀ n ∈ names, IsName n) : t.resolve cwd (pathBelow dir names) = .ok l ↔
      t.IsWithinLimits cwd (pathBelow dir names) ∧ ∃ links, t.Leads top names links l := by
  have hwalk {first last : List Location} (hfirst : t.Leads (origin cwd dir) (steps dir) first top)
      (hlast : t.Leads top names last l) : t.Leads (origin cwd (pathBelow dir names))
        (steps (pathBelow dir names)) (first ++ last) l := by
    rw [origin_pathBelow cwd dir hnames, steps_pathBelow dir hne hnames]
    exact hfirst.parts_of_steps.append hlast
  rw [resolve_pathBelow_iff htop hne hnames, IsWithinLimits, and_assoc]
  refine and_congr_right fun _ => ⟨?_, ?_⟩
  · rintro ⟨first, last, hfirst, hlast, hlimit⟩
    refine ⟨fun links l' hall => ?_, last, hlast⟩
    obtain ⟨rfl, -⟩ := (hwalk hfirst hlast).unique hall
    simpa using hlimit
  · rintro ⟨hlimit, last, hlast⟩
    obtain ⟨-, first, -, hfirst⟩ := resolve_eq_ok_iff.mp htop
    exact ⟨first, last, hfirst, hlast, by simpa using hlimit _ _ (hwalk hfirst hlast)⟩

theorem lookup?_append_dropLast (he : t.lookup? (m ++ names) = some e) (hne : names ≠ []) :
    t.lookup? (m ++ names.dropLast) = some .folder := by
  rw [← List.dropLast_append_of_ne_nil hne]
  exact lookup?_dropLast he (by simp [hne])

/-- A folder below a folder can be opened by its path exactly if the path leads there. -/
theorem isListed_iff_resolve (hm : t.resolve cwd dir = .ok m) (he : t.lookup? (m ++ names) = some e)
    (hne : names ≠ []) : isListed dir names = true ↔
      t.resolve cwd (pathBelow dir names.dropLast) = .ok (m ++ names.dropLast) := by
  rw [isListed, decide_eq_true_eq]
  by_cases hlast : names.dropLast = []
  · rw [hlast, List.append_nil]
    exact iff_of_true (length_le_of_resolve hm) hm
  · have hnames : ∀ n ∈ names.dropLast, IsName n := fun n hn =>
      isName_of_lookup? he n (List.mem_append_right _ (List.dropLast_subset _ hn))
    obtain ⟨-, first, hlimit, hfirst⟩ := resolve_eq_ok_iff.mp hm
    rw [resolve_pathBelow_iff hm hlast hnames]
    have hrest := leads_names (lookup?_append_dropLast he hne) (by simp)
    exact ⟨fun hsize => ⟨hsize, first, [], hfirst, hrest, by simpa using hlimit⟩, And.left⟩

/-- Two paths lead to the same folder, if to any, and alike to all that is below it. -/
structure LeadAlike (t : FileTree) (cwd : Location) (dir dir' : Bytes) : Prop where
  folder : ∀ m, t.lookup? m = some .folder →
    (t.resolve cwd dir = .ok m ↔ t.resolve cwd dir' = .ok m)
  below : ∀ m names e, t.resolve cwd dir = .ok m → names ≠ [] → t.lookup? (m ++ names) = some e →
    ∀ l, t.resolve cwd (pathBelow dir names) = .ok l ↔ t.resolve cwd (pathBelow dir' names) = .ok l

namespace LeadAlike

theorem symm (h : t.LeadAlike cwd dir dir') : t.LeadAlike cwd dir' dir where
  folder m hm := (h.folder m hm).symm
  below m names e hm hne he l :=
    (h.below m names e ((h.folder m (lookup?_of_append he hne)).mpr hm) hne he l).symm

theorem isListed (h : t.LeadAlike cwd dir dir') (hm : t.resolve cwd dir = .ok m)
    (he : t.lookup? (m ++ names) = some e) (hne : names ≠ [])
    (hlisted : isListed dir names = true) : isListed dir' names = true := by
  have hfolder := lookup?_of_append he hne
  rw [isListed_iff_resolve hm he hne] at hlisted
  rw [isListed_iff_resolve ((h.folder m hfolder).mp hm) he hne]
  by_cases hlast : names.dropLast = []
  · rw [hlast, List.append_nil]
    exact (h.folder m hfolder).mp hm
  · exact (h.below m _ _ hm hlast (lookup?_append_dropLast he hne) _).mp hlisted

theorem entryAt_iff (h : t.LeadAlike cwd dir dir') (hm : t.resolve cwd dir = .ok m)
    (he : t.lookup? (m ++ names) = some e) (hne : names ≠ []) {e' : Entry} :
    t.entryAt cwd (pathBelow dir names) = .ok e' ↔ t.entryAt cwd (pathBelow dir' names) = .ok e' := by
  simp only [entryAt_eq_ok_iff, h.below m names e hm hne he]

theorem countsAsFile (h : t.LeadAlike cwd dir dir') (hm : t.resolve cwd dir = .ok m)
    (he : t.lookup? (m ++ names) = some e) (hne : names ≠ [])
    (hcounts : t.countsAsFile cwd (pathBelow dir names) e = true) :
    t.countsAsFile cwd (pathBelow dir' names) e = true := by
  cases e with
  | file content executable => rfl
  | folder => exact absurd hcounts Bool.false_ne_true
  | link target =>
    obtain ⟨content, executable, hfile⟩ := isFile_iff.mp hcounts
    exact isFile_iff.mpr ⟨content, executable, (h.entryAt_iff hm he hne).mp hfile⟩

theorem mem_filesBelow (h : t.LeadAlike cwd dir dir') (hmem : names ∈ t.filesBelow cwd dir) :
    names ∈ t.filesBelow cwd dir' := by
  obtain ⟨hne, hlisted, m, e, hm, he, hcounts⟩ := mem_filesBelow_iff.mp hmem
  have hm' := (h.folder m (lookup?_of_append he hne)).mp hm
  exact mem_filesBelow_iff.mpr
    ⟨hne, h.isListed hm he hne hlisted, m, e, hm', he, h.countsAsFile hm he hne hcounts⟩

/-- Below two paths that lead alike are the same files, in the same order. -/
theorem filesBelow_eq (h : t.LeadAlike cwd dir dir') :
    t.filesBelow cwd dir = t.filesBelow cwd dir' :=
  OrderedSet.eq_of_mem_iff (ascending_filesBelow t cwd dir) (ascending_filesBelow t cwd dir')
    fun _ => ⟨h.mem_filesBelow, h.symm.mem_filesBelow⟩

end LeadAlike

end UnusedAssets.FileTree
