import UnusedAssets.Proofs.FileTree.Walk
import UnusedAssets.Proofs.Path

/-!
# What paths lead to

The answers of a file tree about a path, in terms of the walk along its steps. A path with names
behind it is walked like the path alone, and then from there along the names.
-/

namespace UnusedAssets

open Text

namespace FileTree

variable {t : FileTree} {cwd here top l : Location} {dir path : Bytes}
  {names : List Bytes} {links : List Location} {e : Entry}

theorem steps_pathBelow (dir : Bytes) (hne : names ≠ []) (h : ∀ n ∈ names, IsName n) :
    steps (pathBelow dir names) = Path.parts dir ++ names := by
  obtain ⟨before, last, rfl⟩ : ∃ before last, names = before ++ [last] :=
    ⟨names.dropLast, names.getLast hne, (List.dropLast_concat_getLast hne).symm⟩
  have hlast : IsName last := h last (by simp)
  have hslash : Path.endsInSlash (pathBelow dir (before ++ [last])) = false := by
    rw [pathBelow_append]
    exact Path.endsInSlash_join _ hlast
  simp [steps, parts_pathBelow dir h, hslash]

theorem origin_pathBelow (cwd : Location) (dir : Bytes) (h : ∀ n ∈ names, IsName n) :
    origin cwd (pathBelow dir names) = origin cwd dir := by
  rw [origin, isAbsolute_pathBelow dir h, origin]

/-- A slash at the end of a path adds no step that moves. -/
theorem Leads.parts_of_steps (h : t.Leads here (steps path) links l) :
    t.Leads here (Path.parts path) links l := by
  obtain ⟨m, first, last, rfl, hw, hdot⟩ := h.of_append
  split at hdot
  · cases hdot with
    | stay _ _ walk => cases walk; simpa using hw
    | up dots _ _ => exact absurd dots (by decide)
    | enter entry _ _ => exact absurd rfl (isName_of_entry entry).2.1
    | jump entry _ => exact absurd rfl (isName_of_entry entry).2.1
  · cases hdot
    simpa using hw

theorem Leads.steps_of_parts (h : t.Leads here (Path.parts path) links l)
    (hl : t.isFolderAt l = true) : t.Leads here (steps path) links l := by
  have hdot : t.Leads l (if Path.endsInSlash path then ["."] else []) [] l := by
    split
    · exact .stay rfl hl (.done l)
    · exact .done l
  simpa [steps] using h.append hdot

/-- Below a folder that a path leads to, names lead to what stands there. -/
theorem Leads.append_names (h : t.Leads (origin cwd dir) (steps dir) links top) (hne : names ≠ [])
    (he : t.lookup? (top ++ names) = some e) (plain : ∀ target, e ≠ .link target) :
    t.Leads (origin cwd (pathBelow dir names)) (steps (pathBelow dir names)) links
      (top ++ names) := by
  have hnames : ∀ n ∈ names, IsName n := fun n hn =>
    isName_of_lookup? he n (List.mem_append_right _ hn)
  rw [origin_pathBelow cwd dir hnames, steps_pathBelow dir hne hnames]
  simpa using h.parts_of_steps.append (leads_names he plain)

/-- The walk along a path with names behind it passes through where the path leads. -/
theorem Leads.of_append_names (h : t.Leads (origin cwd (pathBelow dir names))
    (steps (pathBelow dir names)) links l) (hne : names ≠ [])
    (hnames : ∀ n ∈ names, IsName n) :
    ∃ m first last, links = first ++ last ∧ t.Leads (origin cwd dir) (steps dir) first m ∧
      t.Leads m names last l := by
  rw [origin_pathBelow cwd dir hnames, steps_pathBelow dir hne hnames] at h
  obtain ⟨m, first, last, hl, hw, hw'⟩ := h.of_append
  obtain ⟨name, rest, rfl⟩ := List.exists_cons_of_ne_nil hne
  exact ⟨m, first, last, hl, hw.steps_of_parts hw'.isFolderAt, hw'⟩

theorem resolve_eq_ok_iff : t.resolve cwd path = .ok l ↔ pathFault? path = none ∧
    ∃ links, links.length ≤ linkLimit ∧ t.Leads (origin cwd path) (steps path) links l := by
  rw [resolve]
  cases hp : pathFault? path with
  | some fault => simp
  | none => simp [follow_eq_ok_iff]

theorem locate_eq_ok_iff : t.locate cwd path = .ok l ↔ shapeFault? path = none ∧
    (Location.path l).length ≤ pathLimit ∧
    ∃ links, links.length ≤ linkLimit ∧ t.Leads (origin cwd path) (steps path) links l := by
  rw [locate, ← follow_eq_ok_iff]
  cases hp : shapeFault? path with
  | some fault => simp
  | none =>
    cases hfollow : t.follow linkLimit (origin cwd path) (steps path) with
    | error fault => simp
    | ok m =>
      by_cases hsize : pathLimit < (Location.path m).length
      · simp only [hsize, ↓reduceIte, reduceCtorEq, true_and, false_iff, Except.ok.injEq, not_and]
        rintro hl rfl
        omega
      · simp only [hsize, ↓reduceIte, true_and, Except.ok.injEq]
        refine ⟨?_, fun h => h.2⟩
        rintro rfl
        exact ⟨Nat.not_lt.mp hsize, rfl⟩

theorem resolve_top (t : FileTree) (cwd : Location) : t.resolve cwd "/" = .ok [] :=
  resolve_eq_ok_iff.mpr ⟨by decide, [], by simp, .stay rfl rfl (.done [])⟩

theorem length_le_of_resolve (h : t.resolve cwd path = .ok l) :
    path.length ≤ pathLimit := by
  obtain ⟨hfault, -⟩ := resolve_eq_ok_iff.mp h
  unfold pathFault? at hfault
  split at hfault
  · exact absurd hfault (by simp)
  · split at hfault
    · exact absurd hfault (by simp)
    · exact Nat.not_lt.mp ‹_›

theorem entryAt_eq_ok_iff :
    t.entryAt cwd path = .ok e ↔ ∃ l, t.resolve cwd path = .ok l ∧ t.lookup? l = some e := by
  rw [entryAt]
  cases t.resolve cwd path with
  | error fault => simp
  | ok l => cases hl : t.lookup? l <;> simp [hl]

theorem isFile_iff : t.isFile cwd path = true ↔
    ∃ content executable, t.entryAt cwd path = .ok (.file content executable) := by
  rw [isFile]
  cases t.entryAt cwd path with
  | error fault => simp
  | ok e => cases e <;> simp

theorem isFolder_iff : t.isFolder cwd path = true ↔
    ∃ l, t.resolve cwd path = .ok l ∧ t.lookup? l = some .folder := by
  rw [isFolder, ← entryAt_eq_ok_iff]
  cases t.entryAt cwd path with
  | error fault => simp
  | ok e => cases e <;> simp

theorem isFolder_top (t : FileTree) (cwd : Location) : t.isFolder cwd "/" = true :=
  isFolder_iff.mpr ⟨[], resolve_top t cwd, rfl⟩

theorem pathExists_iff : t.pathExists cwd path = true ↔ ∃ e, t.entryAt cwd path = .ok e := by
  rw [pathExists]
  cases t.entryAt cwd path with
  | error fault => simp [Except.isOk, Except.toBool]
  | ok e => simp [Except.isOk, Except.toBool]

end FileTree

end UnusedAssets
