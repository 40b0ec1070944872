import UnusedAssets.Proofs.Candidate
import UnusedAssets.Proofs.FileTree.Removal

/-!
# Projects with files deleted

What is left of a project when some of its files are deleted: a path still leads where it did
unless a link on the way or the end is among them (`entryAt_without_iff`). The way to the project's
folder itself is never lost. The files are given by the texts of their paths, as an analysis gives
them, so all files of one text are deleted together.
-/

namespace UnusedAssets.Project

open Text FileTree

/-- Where the files of the project stand whose paths are read as one of some texts. -/
def locationsOf (p : Project) (paths : List String) : List Location :=
  match p.tree.resolve p.cwd p.root with
  | .error _ => []
  | .ok top => ((p.tree.filesBelow p.cwd p.root).filter fun names => Path.textOf names ∈ paths).map
      (top ++ ·)

def without (p : Project) (paths : List String) : Project :=
  { p with tree := p.tree.removeAll (p.locationsOf paths) }

@[simp] theorem cwd_without (p : Project) (paths : List String) :
    (p.without paths).cwd = p.cwd := rfl

@[simp] theorem root_without (p : Project) (paths : List String) :
    (p.without paths).root = p.root := rfl

variable {p : Project} {paths : List String} {path name : Bytes} {top l : Location}
  {names : List Bytes} {links : List Location} {e : Entry}

theorem mem_locationsOf_iff : l ∈ p.locationsOf paths ↔
    ∃ top, p.tree.resolve p.cwd p.root = .ok top ∧
      ∃ names ∈ p.tree.filesBelow p.cwd p.root, Path.textOf names ∈ paths ∧ l = top ++ names := by
  rw [locationsOf]
  cases p.tree.resolve p.cwd p.root with
  | error fault => simp
  | ok top =>
    simp only [List.mem_map, List.mem_filter, decide_eq_true_eq, Except.ok.injEq, exists_eq_left']
    exact exists_congr fun names =>
      ⟨fun h => ⟨h.1.1, h.1.2, h.2.symm⟩, fun h => ⟨⟨h.1, h.2.1⟩, h.2.2.symm⟩⟩

theorem append_mem_locationsOf_iff (htop : p.tree.resolve p.cwd p.root = .ok top) :
    top ++ names ∈ p.locationsOf paths ↔
      names ∈ p.tree.filesBelow p.cwd p.root ∧ Path.textOf names ∈ paths := by
  rw [mem_locationsOf_iff]
  constructor
  · rintro ⟨top', htop', names', hnames', htext, he⟩
    obtain rfl : top = top' := Except.ok.inj (htop.symm.trans htop')
    obtain rfl := List.append_cancel_left he
    exact ⟨hnames', htext⟩
  · rintro ⟨hnames, htext⟩
    exact ⟨top, htop, names, hnames, htext, rfl⟩

theorem leaves_of_locationsOf (p : Project) (paths : List String) :
    ∀ l ∈ p.locationsOf paths, ∃ e, p.tree.lookup? l = some e ∧ e ≠ .folder := by
  intro l hl
  obtain ⟨top, htop, names, hnames, -, rfl⟩ := mem_locationsOf_iff.mp hl
  obtain ⟨-, -, top', e, htop', he, hcounts⟩ := mem_filesBelow_iff.mp hnames
  obtain rfl : top = top' := Except.ok.inj (htop.symm.trans htop')
  refine ⟨e, he, ?_⟩
  rintro rfl
  exact absurd hcounts (by simp [countsAsFile])

/-- A link that counts as a file leads to a file from the folder in which it stands. -/
theorem leads_of_isFile (htop : p.tree.resolve p.cwd p.root = .ok top)
    (hentry : p.tree.lookup? (top ++ (names ++ [name])) = some e)
    (hfile : p.tree.isFile p.cwd (pathBelow p.root (names ++ [name])) = true) :
    ∃ links l content executable, p.tree.Leads (top ++ names) [name] links l ∧
      p.tree.lookup? l = some (.file content executable) := by
  have hnames : ∀ n ∈ names ++ [name], IsName n := fun n hn =>
    isName_of_lookup? hentry n (List.mem_append_right _ hn)
  obtain ⟨content, executable, hat⟩ := isFile_iff.mp hfile
  obtain ⟨l, hresolve, hl⟩ := entryAt_eq_ok_iff.mp hat
  obtain ⟨-, all, -, hall⟩ := resolve_eq_ok_iff.mp hresolve
  obtain ⟨-, links, -, hroot⟩ := resolve_eq_ok_iff.mp htop
  obtain ⟨m, first, last, -, hfirst, hlast⟩ := hall.of_append_names (by simp) hnames
  obtain ⟨-, rfl⟩ := hfirst.unique hroot
  obtain ⟨d, inner, outer, -, hinner, houter⟩ := hlast.of_append
  have hopened : p.tree.lookup? (m ++ names) = some .folder := by
    rw [← List.append_assoc] at hentry
    exact lookup?_of_append hentry (by simp)
  obtain ⟨-, rfl⟩ := hinner.unique (leads_names hopened (by simp))
  exact ⟨outer, l, content, executable, houter, hl⟩

/-- The links on the way to the project's folder are no files of the project, since they lead to
folders. -/
theorem not_mem_locationsOf_of_root (htop : p.tree.resolve p.cwd p.root = .ok top)
    (hfolder : p.tree.lookup? top = some .folder)
    (hwalk : p.tree.Leads (origin p.cwd p.root) (steps p.root) links top) :
    ∀ x ∈ top :: links, x ∉ p.locationsOf paths := by
  intro x hx hmem
  rcases List.mem_cons.mp hx with rfl | hx
  · obtain ⟨e, he, hleaf⟩ := leaves_of_locationsOf p paths x hmem
    rw [hfolder, Option.some.injEq] at he
    exact hleaf he.symm
  · obtain ⟨top', htop', names, hnames, -, rfl⟩ := mem_locationsOf_iff.mp hmem
    obtain rfl : top = top' := Except.ok.inj (htop.symm.trans htop')
    obtain ⟨hne, -, top', e, htop', he, hcounts⟩ := mem_filesBelow_iff.mp hnames
    obtain rfl : top = top' := Except.ok.inj (htop.symm.trans htop')
    obtain ⟨target, hlink⟩ := hwalk.exists_link hx
    obtain rfl := Option.some.inj (he.symm.trans hlink)
    obtain ⟨outer, name, rfl⟩ : ∃ outer name, names = outer ++ [name] :=
      ⟨names.dropLast, names.getLast hne, (List.dropLast_concat_getLast hne).symm⟩
    -- A link that counts as a file leads to a file from anywhere, so the walk would end there.
    obtain ⟨links', l, content, executable, hname, hl⟩ := leads_of_isFile htop hlink hcounts
    rw [← List.append_assoc] at hx
    exact hwalk.not_file_of_mem hfolder hx hname content executable hl

/-- What a path leads to after a deletion: what it led to before, if that and the links on the way
are still there. -/
theorem entryAt_without_iff :
    (p.without paths).tree.entryAt p.cwd path = .ok e ↔ pathFault? path = none ∧
      ∃ links l, links.length ≤ linkLimit ∧
        p.tree.Leads (origin p.cwd path) (steps path) links l ∧ p.tree.lookup? l = some e ∧
          ∀ x ∈ l :: links, x ∉ p.locationsOf paths := by
  rw [entryAt_eq_ok_iff]
  simp only [resolve_eq_ok_iff, without]
  constructor
  · intro hafter
    obtain ⟨l, ⟨hfault, links, hlimit, hwalk⟩, hl⟩ := hafter
    exact ⟨hfault, links, l, hlimit,
      (leads_removeAll_iff (leaves_of_locationsOf p paths)).mp ⟨hwalk, hl⟩⟩
  · intro hbefore
    obtain ⟨hfault, links, l, hlimit, hkept⟩ := hbefore
    obtain ⟨hwalk, hl⟩ := (leads_removeAll_iff (leaves_of_locationsOf p paths)).mpr hkept
    exact ⟨l, ⟨hfault, links, hlimit, hwalk⟩, hl⟩

theorem entryAt_of_without
    (hafter : (p.without paths).tree.entryAt p.cwd path = .ok e) :
    p.tree.entryAt p.cwd path = .ok e := by
  obtain ⟨hfault, links, l, hlimit, hwalk, hl, -⟩ := entryAt_without_iff.mp hafter
  exact entryAt_eq_ok_iff.mpr ⟨l, resolve_eq_ok_iff.mpr ⟨hfault, links, hlimit, hwalk⟩, hl⟩

/-- A file can still be read by a path if nothing on the way was deleted. -/
theorem isFile_without_iff :
    (p.without paths).tree.isFile p.cwd path = true ↔ p.tree.isFile p.cwd path = true ∧
      ∀ links l, p.tree.Leads (origin p.cwd path) (steps path) links l →
        ∀ x ∈ l :: links, x ∉ p.locationsOf paths := by
  rw [isFile_iff, isFile_iff]
  constructor
  · intro hafter
    obtain ⟨content, executable, hentry⟩ := hafter
    refine ⟨⟨content, executable, entryAt_of_without hentry⟩, ?_⟩
    obtain ⟨-, links, l, -, hwalk, -, hkept⟩ := entryAt_without_iff.mp hentry
    intro links' l' hwalk'
    obtain ⟨rfl, rfl⟩ := hwalk'.unique hwalk
    exact hkept
  · intro hbefore
    obtain ⟨⟨content, executable, hentry⟩, hkept⟩ := hbefore
    obtain ⟨l, hresolve, hl⟩ := entryAt_eq_ok_iff.mp hentry
    obtain ⟨hfault, links, hlimit, hwalk⟩ := resolve_eq_ok_iff.mp hresolve
    exact ⟨content, executable,
      entryAt_without_iff.mpr ⟨hfault, links, l, hlimit, hwalk, hl, hkept links l hwalk⟩⟩

theorem resolve_root_without (paths : List String) (htop : p.tree.resolve p.cwd p.root = .ok top)
    (hfolder : p.tree.lookup? top = some .folder) :
    (p.without paths).tree.resolve p.cwd p.root = .ok top ∧
      (p.without paths).tree.lookup? top = some .folder := by
  obtain ⟨hfault, links, hlimit, hwalk⟩ := resolve_eq_ok_iff.mp htop
  have hkept : ∀ x ∈ top :: links, x ∉ p.locationsOf paths :=
    not_mem_locationsOf_of_root htop hfolder hwalk
  obtain ⟨hwalk', hfolder'⟩ :=
    (leads_removeAll_iff (leaves_of_locationsOf p paths)).mpr ⟨hwalk, hfolder, hkept⟩
  exact ⟨resolve_eq_ok_iff.mpr ⟨hfault, links, hlimit, hwalk'⟩, hfolder'⟩

end UnusedAssets.Project
