import UnusedAssets.Proofs.Listing

/-!
# Paths below a folder

A path with names behind it resolves if the whole of it is no longer than a path may be, and the
links on the way to the folder and those behind it are together no more than are followed
(`resolve_pathBelow_iff`). As long as the names lead through no link, the files below them are files
below the folder (`mem_filesBelow_pathBelow_iff`).
-/

namespace UnusedAssets.FileTree

open Text

variable {t : FileTree} {cwd here top l : Location} {dir path name : Bytes}
  {lead names : List Bytes} {links : List Location}

theorem pathBelow_singleton (dir name : Bytes) : pathBelow dir [name] = Path.join dir name := rfl

theorem length_join_le (path next : Bytes) :
    (Path.join path next).length ≤ path.length + next.length + 1 := by
  unfold Path.join
  split
  · omega
  · split <;> simp only [List.length_append, List.length_cons] <;> omega

theorem nul_mem_join_iff (path : Bytes) (h : IsName name) :
    0 ∈ Path.join path name ↔ 0 ∈ path := by
  have hname : 0 ∉ name := h.2.2.2.2.1
  unfold Path.join
  rw [h.isAbsolute, if_neg (by decide)]
  split
  · simp [hname]
  · have hslash : 0 ≠ Path.slash := by decide
    simp [hname, hslash]

theorem nul_mem_pathBelow_iff (dir : Bytes) (h : ∀ n ∈ names, IsName n) :
    0 ∈ pathBelow dir names ↔ 0 ∈ dir := by
  induction names generalizing dir with
  | nil => rfl
  | cons name names ih =>
    rw [pathBelow_cons, ih _ fun n hn => h n (List.mem_cons_of_mem _ hn),
      nul_mem_join_iff dir (h name (by simp))]

theorem pathFault?_eq_none_iff : pathFault? path = none ↔
    0 ∉ path ∧ path ≠ [] ∧ path.length ≤ pathLimit := by
  unfold pathFault? shapeFault?
  by_cases hnul : 0 ∈ path
  · simp [hnul]
  · by_cases hne : path = []
    · simp [hne]
    · simp [hnul, hne]

theorem pathFault?_pathBelow_iff (hdir : 0 ∉ dir) (hne : names ≠ [])
    (hnames : ∀ n ∈ names, IsName n) :
    pathFault? (pathBelow dir names) = none ↔
      (pathBelow dir names).length ≤ pathLimit := by
  have hlonger := length_lt_pathBelow dir hne hnames
  have hpath : pathBelow dir names ≠ [] := by
    rw [ne_eq, ← List.length_eq_zero_iff]
    omega
  rw [pathFault?_eq_none_iff, nul_mem_pathBelow_iff dir hnames]
  simp [hdir, hpath]

/-- A path with names behind it is walked to the folder first, and from there along the names. -/
theorem resolve_pathBelow_iff (htop : t.resolve cwd dir = .ok top) (hne : names ≠ [])
    (hnames : ∀ n ∈ names, IsName n) : t.resolve cwd (pathBelow dir names) = .ok l ↔
      (pathBelow dir names).length ≤ pathLimit ∧
        ∃ first last, t.Leads (origin cwd dir) (steps dir) first top ∧ t.Leads top names last l ∧
          first.length + last.length ≤ linkLimit := by
  obtain ⟨hfault, links, -, hwalk⟩ := resolve_eq_ok_iff.mp htop
  rw [resolve_eq_ok_iff, pathFault?_pathBelow_iff (pathFault?_eq_none_iff.mp hfault).1 hne hnames]
  refine and_congr_right fun _ => ⟨?_, ?_⟩
  · rintro ⟨all, hlimit, hall⟩
    obtain ⟨m, first, last, rfl, hfirst, hlast⟩ := hall.of_append_names hne hnames
    obtain ⟨-, rfl⟩ := hfirst.unique hwalk
    exact ⟨first, last, hfirst, hlast, by simpa using hlimit⟩
  · rintro ⟨first, last, hfirst, hlast, hlimit⟩
    refine ⟨first ++ last, by simpa using hlimit, ?_⟩
    rw [origin_pathBelow cwd dir hnames, steps_pathBelow dir hne hnames]
    exact hfirst.parts_of_steps.append hlast

/-- The path of a file that is listed leads to a file, unless it is too long. -/
theorem exists_file_of_mem_filesBelow (h : names ∈ t.filesBelow cwd dir)
    (hsize : (pathBelow dir names).length ≤ pathLimit) : ∃ content executable,
      t.entryAt cwd (pathBelow dir names) = .ok (.file content executable) := by
  obtain ⟨hne, -, top, e, htop, he, hcounts⟩ := mem_filesBelow_iff.mp h
  cases e with
  | folder => exact absurd hcounts Bool.false_ne_true
  | link target => exact isFile_iff.mp hcounts
  | file content executable =>
    obtain ⟨-, links, hlimit, hwalk⟩ := resolve_eq_ok_iff.mp htop
    have hresolve : t.resolve cwd (pathBelow dir names) = .ok (top ++ names) :=
      (resolve_pathBelow_iff htop hne (isName_of_mem_filesBelow h)).mpr
        ⟨hsize, links, [], hwalk, leads_names he (by simp), by simpa using hlimit⟩
    exact ⟨content, executable, entryAt_eq_ok_iff.mpr ⟨_, hresolve, he⟩⟩

theorem exists_resolve_of_pathBelow (hdir : dir ≠ []) (hne : names ≠ [])
    (hnames : ∀ n ∈ names, IsName n) (h : t.resolve cwd (pathBelow dir names) = .ok l) :
    ∃ top, t.resolve cwd dir = .ok top := by
  obtain ⟨hfault, all, hlimit, hall⟩ := resolve_eq_ok_iff.mp h
  obtain ⟨top, first, last, rfl, hfirst, -⟩ := hall.of_append_names hne hnames
  obtain ⟨hnul, -, hsize⟩ := pathFault?_eq_none_iff.mp hfault
  have hlonger := length_lt_pathBelow dir hne hnames
  refine ⟨top, resolve_eq_ok_iff.mpr ⟨pathFault?_eq_none_iff.mpr ⟨?_, hdir, by omega⟩, first, ?_,
    hfirst⟩⟩
  · rwa [nul_mem_pathBelow_iff dir hnames] at hnul
  · simp only [List.length_append] at hlimit
    omega

/-- Where no link stands on the way, names lead to what they say. -/
theorem Leads.eq_of_plain (h : t.Leads here names links l) (hnames : ∀ n ∈ names, IsName n)
    (plain : ∀ outer, outer ≠ [] → outer <+: names →
      ∀ target, t.lookup? (here ++ outer) ≠ some (.link target)) :
    links = [] ∧ l = here ++ names := by
  induction h with
  | done here => exact ⟨rfl, (List.append_nil here).symm⟩
  | stay dot _ _ _ => exact absurd dot (hnames _ List.mem_cons_self).2.1
  | up dots _ _ _ => exact absurd dots (hnames _ List.mem_cons_self).2.2.1
  | @enter here step rest links l e entry _ walk ih =>
    obtain ⟨hlinks, hl⟩ := ih (fun n hn => hnames n (List.mem_cons_of_mem _ hn))
      fun outer houter hprefix target => by
        rw [List.append_assoc, List.singleton_append]
        exact plain (step :: outer) (by simp) (List.cons_prefix_cons.mpr ⟨rfl, hprefix⟩) target
    exact ⟨hlinks, by rw [hl, List.append_assoc, List.singleton_append]⟩
  | @jump here step target rest links l entry _ _ =>
    exact absurd entry (plain [step] (by simp) ⟨rest, rfl⟩ target)

theorem isListed_append (dir : Bytes) (hne : names ≠ []) :
    isListed dir (lead ++ names) = isListed (pathBelow dir lead) names := by
  rw [isListed, isListed, List.dropLast_append_of_ne_nil hne, pathBelow_append]

/-- Behind names that lead through no link, the same files are below the folder and below them. -/
theorem mem_filesBelow_pathBelow_iff (hdir : dir ≠ []) (hlead : lead ≠ [])
    (hproper : ∀ n ∈ lead, IsName n)
    (plain : ∀ top, t.resolve cwd dir = .ok top → ∀ outer, outer ≠ [] → outer <+: lead →
      ∀ target, t.lookup? (top ++ outer) ≠ some (.link target)) :
    names ∈ t.filesBelow cwd (pathBelow dir lead) ↔
      names ≠ [] ∧ lead ++ names ∈ t.filesBelow cwd dir := by
  simp only [mem_filesBelow_iff, ← pathBelow_append]
  constructor
  · rintro ⟨hne, hlisted, m, e, hm, he, hcounts⟩
    obtain ⟨top, htop⟩ := exists_resolve_of_pathBelow hdir hlead hproper hm
    obtain ⟨-, first, last, -, hlast, -⟩ := (resolve_pathBelow_iff htop hlead hproper).mp hm
    obtain ⟨-, rfl⟩ := hlast.eq_of_plain hproper (plain top htop)
    rw [List.append_assoc] at he
    exact ⟨hne, by simp [hlead], (isListed_append dir hne).trans hlisted, top, e, htop, he, hcounts⟩
  · rintro ⟨hne, -, hlisted, top, e, htop, he, hcounts⟩
    rw [isListed_append dir hne] at hlisted
    have hnames : ∀ n ∈ names, IsName n := fun n hn =>
      isName_of_lookup? he n (by simp [hn])
    rw [← List.append_assoc] at he
    have hfolder : t.lookup? (top ++ lead) = some .folder := lookup?_of_append he hne
    -- The folder has a path at most as long as that of the folder in which the file stands.
    have hsize : (pathBelow dir lead).length ≤ pathLimit := by
      rw [isListed, decide_eq_true_eq] at hlisted
      by_cases hlast : names.dropLast = []
      · rwa [hlast] at hlisted
      · have hlonger := length_lt_pathBelow (pathBelow dir lead) hlast fun n hn =>
          hnames n (List.dropLast_subset _ hn)
        omega
    obtain ⟨-, first, hlimit, hfirst⟩ := resolve_eq_ok_iff.mp htop
    have hm : t.resolve cwd (pathBelow dir lead) = .ok (top ++ lead) :=
      (resolve_pathBelow_iff htop hlead hproper).mpr
        ⟨hsize, first, [], hfirst, leads_names hfolder (by simp), by simpa using hlimit⟩
    exact ⟨hne, hlisted, top ++ lead, e, hm, he, hcounts⟩

end UnusedAssets.FileTree
