import UnusedAssets.Proofs.FileTree.ProjectRoot
import UnusedAssets.Proofs.Survey.WorkingFolder

/-!
# The nearest root

The location that a path leads to is no link, and its absolute path leads there again
(`locate_path`). The search from there upwards ends at the nearest root, if there is one
(`nearestRoot?_cases`). So what is found for a path is found again from there, and found from all
folders on the way down that have no root of their own (`projectRoot_nearest`).
-/

namespace UnusedAssets

open Text

namespace FileTree

variable {t : FileTree} {cwd here l m r : Location} {path : Bytes} {todo : List Bytes}
  {links : List Location}

/-! ### Where paths lead -/

def Stands (t : FileTree) (l : Location) : Prop :=
  ∃ e, t.lookup? l = some e ∧ ∀ target, e ≠ .link target

theorem stands_of_folder (h : t.lookup? l = some .folder) : t.Stands l := ⟨.folder, h, by simp⟩

theorem Stands.of_prefix (h : t.Stands l) (hm : m <+: l) : t.Stands m := by
  obtain ⟨more, rfl⟩ := hm
  obtain ⟨e, he, -⟩ := id h
  by_cases hmore : more = []
  · rwa [hmore, List.append_nil] at h
  · exact stands_of_folder (lookup?_of_append he hmore)

/-- A walk with a step ends where something stands that is no link. -/
theorem Leads.stands (h : t.Leads here todo links l) (hhere : todo = [] → t.Stands here) :
    t.Stands l := by
  induction h with
  | done => exact hhere rfl
  | stay _ folder _ ih => exact ih fun _ => stands_of_folder (isFolderAt_iff.mp folder)
  | @up here _ _ _ _ _ folder _ ih =>
    refine ih fun _ => stands_of_folder ?_
    by_cases htop : here = []
    · subst htop
      rfl
    · exact lookup?_dropLast (isFolderAt_iff.mp folder) htop
  | enter entry plain _ ih => exact ih fun _ => ⟨_, entry, plain⟩
  | jump entry _ ih =>
    refine ih fun _ => stands_of_folder ?_
    unfold origin
    split
    · rfl
    · exact isFolderAt_iff.mp (isFolderAt_of_entry entry)

/-- A path without parts is made of slashes, so it asks for a folder. -/
theorem steps_ne_nil (h : path ≠ []) : steps path ≠ [] := by
  intro hsteps
  obtain ⟨hparts, hslash⟩ := List.append_eq_nil_iff.mp hsteps
  have hfields := fields_ne_nil Path.slash path
  have hlast : (fields Path.slash path).getLast hfields = [] := by
    simpa using List.filter_eq_nil_iff.mp hparts _ (List.getLast_mem hfields)
  have hpath := between_fields Path.slash path
  rw [← List.dropLast_concat_getLast hfields, hlast] at hpath
  by_cases hinit : (fields Path.slash path).dropLast = []
  · rw [hinit] at hpath
    exact h hpath.symm
  · rw [between_append Path.slash hinit (by simp)] at hpath
    have hends : Path.endsInSlash path = true := Path.endsInSlash_iff.mpr ⟨_, hpath.symm⟩
    simp [hends] at hslash

theorem stands_of_locate (h : t.locate cwd path = .ok l) : t.Stands l := by
  obtain ⟨hfault, -, links, -, hw⟩ := locate_eq_ok_iff.mp h
  refine hw.stands fun hsteps => absurd hsteps (steps_ne_nil ?_)
  rintro rfl
  exact absurd hfault (by decide)

theorem shapeFault?_path (h : ∀ n ∈ l, IsName n) : shapeFault? (Location.path l) = none := by
  have hnul : 0 ∉ Location.path l := by
    rw [Location.path, List.mem_cons]
    rintro (hslash | hnames)
    · exact absurd hslash (by decide)
    · exact not_mem_nul_of_names h hnames
  have hne : Location.path l ≠ [] := by simp [Location.path]
  rw [shapeFault?, if_neg hnul, if_neg hne]

theorem length_le_of_locate (h : t.locate cwd path = .ok l) :
    (Location.path l).length ≤ pathLimit := (locate_eq_ok_iff.mp h).2.1

/-- The absolute path of what a path leads to leads there. -/
theorem locate_path (h : t.Stands l) (hsize : (Location.path l).length ≤ pathLimit)
    (cwd : Location) : t.locate cwd (Location.path l) = .ok l := by
  obtain ⟨e, he, plain⟩ := h
  exact locate_eq_ok_iff.mpr
    ⟨shapeFault?_path (isName_of_lookup? he), hsize, [], by simp, leads_path he plain⟩

/-! ### Roots -/

/-- One of the names that mark a root leads to a file from a location. -/
def IsRoot (t : FileTree) (l : Location) : Prop :=
  ∃ name ∈ rootMarkers, ∃ file content executable,
    t.resolve [] (Path.join (Location.path l) name) = .ok file ∧
      t.lookup? file = some (.file content executable)

theorem isProjectRoot_path_iff :
    t.isProjectRoot cwd (Location.path l) = true ↔ t.IsRoot l := by
  have habsolute := Location.isAbsolute_path l
  have hfile (name : String) : t.isFile cwd (Path.join (Location.path l) name) = true ↔
      ∃ file content executable, t.resolve [] (Path.join (Location.path l) name) = .ok file ∧
        t.lookup? file = some (.file content executable) := by
    rw [isFile_of_absolute (Path.isAbsolute_join_of_absolute habsolute name), isFile_iff]
    simp only [entryAt_eq_ok_iff]
    constructor
    · rintro ⟨content, executable, file, hfile⟩
      exact ⟨file, content, executable, hfile⟩
    · rintro ⟨file, content, executable, hfile⟩
      exact ⟨content, executable, file, hfile⟩
  simp only [isProjectRoot, List.any_eq_true, hfile, IsRoot]

theorem not_isRoot_of_absent (hl : t.lookup? l = some .folder)
    (h : ∀ name ∈ rootMarkers, t.lookup? (l ++ [encode name]) = none) : ¬ t.IsRoot l := by
  rintro ⟨name, hname, file, content, executable, hr, hfile⟩
  have hproper : ∀ name ∈ rootMarkers, IsName name := by decide
  have hnames : ∀ n ∈ l ++ [encode name], IsName n :=
    List.forall_mem_append.mpr ⟨isName_of_lookup? hl, by simpa using hproper name hname⟩
  have hexists : t.pathExists [] (Path.join (Location.path l) name) = true :=
    pathExists_iff.mpr ⟨_, entryAt_eq_ok_iff.mpr ⟨file, hr, hfile⟩⟩
  rw [Location.join_path hnames,
    pathExists_path_of_absent (hproper name hname) hl (h name hname)] at hexists
  exact absurd hexists (by decide)

/-- A root at a location or above it, with no other root between. -/
structure NearestRoot (t : FileTree) (l r : Location) : Prop where
  above : r <+: l
  root : t.IsRoot r
  nearest : ∀ m, m <+: l → t.IsRoot m → m <+: r

theorem NearestRoot.unique {r' : Location} (h : t.NearestRoot l r) (h' : t.NearestRoot l r') :
    r = r' :=
  (h'.nearest r h.above h.root).eq_of_length_le (h.nearest r' h'.above h'.root).length_le

theorem nearestRoot_of_between (hr : t.IsRoot r) (habove : r <+: l)
    (hbetween : ∀ m, r <+: m → m ≠ r → m <+: l → ¬ t.IsRoot m) : t.NearestRoot l r where
  above := habove
  root := hr
  nearest m hm hroot := by
    rcases List.prefix_or_prefix_of_prefix hm habove with h | h
    · exact h
    · by_cases heq : m = r
      · exact heq ▸ List.prefix_rfl
      · exact absurd hroot (hbetween m h heq hm)

/-- What stands above a location stands above the last step to it, but for the location itself. -/
theorem prefix_cases (hm : m <+: l) : m = l ∨ m <+: l.dropLast := by
  by_cases hl : l = []
  · subst hl
    exact .inl (List.prefix_nil.mp hm)
  · rw [← List.dropLast_concat_getLast hl, List.prefix_concat_iff] at hm
    rwa [List.dropLast_concat_getLast hl] at hm

theorem nearestRoot?_cases (t : FileTree) (l : Location) :
    (∃ r, t.nearestRoot? l = some r ∧ t.NearestRoot l r) ∨
      t.nearestRoot? l = none ∧ ∀ m, m <+: l → ¬ t.IsRoot m := by
  fun_induction nearestRoot? t l with
  | case1 l hroot =>
    exact .inl ⟨l, rfl, List.prefix_rfl, isProjectRoot_path_iff.mp hroot, fun m hm _ => hm⟩
  | case2 hroot =>
    refine .inr ⟨rfl, fun m hm => ?_⟩
    obtain rfl := List.prefix_nil.mp hm
    exact mt isProjectRoot_path_iff.mpr hroot
  | case3 l hroot _ ih =>
    have hself := mt isProjectRoot_path_iff.mpr hroot
    rcases ih with ⟨r, hr, hnearest⟩ | ⟨hnone, hno⟩
    · refine .inl ⟨r, hr, hnearest.above.trans (List.dropLast_prefix l), hnearest.root, ?_⟩
      intro m hm hmroot
      rcases prefix_cases hm with rfl | hm
      · exact absurd hmroot hself
      · exact hnearest.nearest m hm hmroot
    · refine .inr ⟨hnone, fun m hm => ?_⟩
      rcases prefix_cases hm with rfl | hm
      · exact hself
      · exact hno m hm

theorem nearestRoot?_eq_some (h : t.NearestRoot l r) : t.nearestRoot? l = some r := by
  rcases nearestRoot?_cases t l with ⟨r', hr', hnearest⟩ | ⟨-, hno⟩
  · rw [hr', hnearest.unique h]
  · exact absurd h.root (hno r h.above)

theorem nearestRoot?_eq_none (h : ∀ m, m <+: l → ¬ t.IsRoot m) : t.nearestRoot? l = none := by
  rcases nearestRoot?_cases t l with ⟨r, -, hnearest⟩ | ⟨hnone, -⟩
  · exact absurd hnearest.root (h r hnearest.above)
  · exact hnone

/-! ### The roots of projects -/

theorem projectRoot?_of_locate (h : t.locate cwd path = .ok l) :
    t.projectRoot? cwd path = some ((t.nearestRoot? l).getD l) := by
  rw [projectRoot?, h]

theorem projectRoot?_eq_none_iff :
    t.projectRoot? cwd path = none ↔ ∀ l, t.locate cwd path ≠ .ok l := by
  cases h : t.locate cwd path with
  | ok l => simp [projectRoot?_of_locate h]
  | error fault => simp [projectRoot?, h]

theorem projectRoot?_cases (h : t.locate cwd path = .ok l) :
    ∃ r, t.projectRoot? cwd path = some r ∧
      (t.NearestRoot l r ∨ r = l ∧ ∀ m, m <+: l → ¬ t.IsRoot m) := by
  rw [projectRoot?_of_locate h]
  rcases nearestRoot?_cases t l with ⟨r, hr, hnearest⟩ | ⟨hnone, hno⟩
  · exact ⟨r, by rw [hr, Option.getD_some], .inl hnearest⟩
  · exact ⟨l, by rw [hnone, Option.getD_none], .inr ⟨rfl, hno⟩⟩

/-- What is found for a path is found for its own absolute path. -/
theorem projectRoot?_path (h : t.projectRoot? cwd path = some r) (cwd' : Location) :
    t.projectRoot? cwd' (Location.path r) = some r := by
  obtain ⟨l, hl⟩ := exists_locate h
  have hstands := stands_of_locate hl
  have hsize := length_le_of_locate hl
  obtain ⟨r', hr', hcases⟩ := projectRoot?_cases hl
  obtain rfl : r' = r := Option.some.inj (hr'.symm.trans h)
  rcases hcases with hnearest | ⟨rfl, hno⟩
  · have hself : t.NearestRoot r' r' := ⟨List.prefix_rfl, hnearest.root, fun m hm _ => hm⟩
    rw [projectRoot?_of_locate (locate_path (hstands.of_prefix hnearest.above)
      ((Location.length_path_le hnearest.above).trans hsize) cwd'),
      nearestRoot?_eq_some hself, Option.getD_some]
  · rw [projectRoot?_of_locate (locate_path hstands hsize cwd'), nearestRoot?_eq_none hno,
      Option.getD_none]

/-- A root is found exactly for the paths that lead somewhere: the nearest one from there upwards, or
the end of the path itself if there is none. It is found again for its own path, and it is the same,
with the same analysis, from wherever below it no other root is nearer. -/
theorem projectRoot_nearest (t : FileTree) :
    (∀ cwd l, t.isProjectRoot cwd (Location.path l) = true ↔ t.IsRoot l) ∧
    (∀ cwd path, t.projectRoot? cwd path = none ↔ ∀ l, t.locate cwd path ≠ .ok l) ∧
    (∀ cwd path l, t.locate cwd path = .ok l → ∃ r, t.projectRoot? cwd path = some r ∧
      (t.NearestRoot l r ∨ r = l ∧ ∀ m, m <+: l → ¬ t.IsRoot m)) ∧
    (∀ cwd path r, t.projectRoot? cwd path = some r →
      ∀ cwd', t.projectRoot? cwd' (Location.path r) = some r) ∧
    ∀ cwd path l r, t.locate cwd path = .ok l → t.IsRoot r → r <+: l →
      (∀ m, r <+: m → m ≠ r → m <+: l → ¬ t.IsRoot m) →
      t.projectRoot? cwd path = some r ∧ ∀ cwd',
        Config.load ⟨t, cwd', Location.path r⟩ = Config.load ⟨t, cwd, Location.path r⟩ ∧
        ∀ s, Project.analyze ⟨t, cwd', Location.path r⟩ s =
          Project.analyze ⟨t, cwd, Location.path r⟩ s := by
  refine ⟨fun _ _ => isProjectRoot_path_iff, fun _ _ => projectRoot?_eq_none_iff,
    fun _ _ _ => projectRoot?_cases, fun _ _ _ => projectRoot?_path,
    fun cwd path l r hl hr habove hbetween => ⟨?_, fun cwd' => ?_⟩⟩
  · have hnearest := nearestRoot_of_between hr habove hbetween
    rw [projectRoot?_of_locate hl, nearestRoot?_eq_some hnearest, Option.getD_some]
  · have habsolute := Location.isAbsolute_path r
    let p : Project := ⟨t, cwd, Location.path r⟩
    exact ⟨Config.load_startedIn (p := p) habsolute cwd',
      Project.analyze_startedIn (p := p) habsolute cwd'⟩

def linkedProject : FileTree :=
  .ofEntries [(["inside"], .link "project/views"), (["project"], .folder),
    (["project", "artisan"], .file [] false), (["project", "views"], .folder)] (by decide)

theorem locate_inside : linkedProject.locate [] "/inside" =
    .ok [encode "project", encode "views"] := by
  have hsteps : steps "/inside" = [encode "inside"] := by decide
  have htarget : steps "project/views" = [encode "project", encode "views"] := by decide
  have horigin : origin [] "/inside" = [] := by decide
  have horigin' : origin [] "project/views" = [] := by decide
  have hlink : linkedProject.lookup? ([] ++ [encode "inside"]) = some (.link "project/views") := by
    decide
  refine locate_eq_ok_iff.mpr ⟨by decide, by decide, [[encode "inside"]], by decide, ?_⟩
  rw [horigin, hsteps]
  refine .jump hlink ?_
  rw [horigin', htarget]
  exact leads_names (e := .folder) (by decide) (by simp)

/-- The project is found through the link, again from its own path, and with the same analysis as in
its own folder. -/
theorem projectRoot_nearest_linkedProject : linkedProject.IsRoot ["project"] ∧
    linkedProject.projectRoot? [] "/inside" = some [encode "project"] ∧
    linkedProject.projectRoot? ["project", "views"] "/project" = some [encode "project"] ∧
    ∀ s, Project.analyze ⟨linkedProject, ["project"], "/project"⟩ s =
      Project.analyze ⟨linkedProject, [], "/project"⟩ s := by
  have hfile : linkedProject.lookup? ["project", "artisan"] = some (.file [] false) := by decide
  have hjoin : Path.join (Location.path ["project"]) "artisan" =
      Location.path ["project", "artisan"] := by decide
  have hroot : linkedProject.IsRoot ["project"] := by
    refine ⟨"artisan", by decide, ["project", "artisan"], [], false, ?_, hfile⟩
    rw [hjoin]
    exact resolve_path hfile (by simp) (by decide)
  have hbetween : ∀ m, [encode "project"] <+: m → m ≠ [encode "project"] →
      m <+: [encode "project", encode "views"] → ¬ linkedProject.IsRoot m := by
    intro m habove hne hm
    rcases prefix_cases hm with rfl | hm
    · exact not_isRoot_of_absent (by decide) (by decide)
    · exact absurd (hm.eq_of_length_le habove.length_le) hne
  obtain ⟨-, -, -, hagain, hbelow⟩ := projectRoot_nearest linkedProject
  obtain ⟨hfound, hsame⟩ := hbelow [] "/inside" ["project", "views"] ["project"] locate_inside hroot
    ⟨[encode "views"], rfl⟩ hbetween
  exact ⟨hroot, hfound, hagain _ _ _ hfound _, (hsame ["project"]).2⟩

end FileTree

end UnusedAssets
