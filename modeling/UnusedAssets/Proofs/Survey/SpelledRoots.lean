import UnusedAssets.Proofs.Analysis
import UnusedAssets.Proofs.Candidate.FarFolders
import UnusedAssets.Proofs.Survey.Spellings

/-!
# Analyses under another path

An analysis finds the same under every path of a project's folder that keeps what it comes across
within the limits alike (`analyze_of_spelling`). At the limits for the length of a path and for the
links on the way the path matters (`spelling_matters_at_limits`).
-/

namespace UnusedAssets.Project

open Text FileTree Survey

variable {p : Project} {root : Bytes} {top : Location}

theorem trace_of_resolve {s : Settings} (hroot : p.tree.resolve p.cwd p.root = .ok top)
    (hfolder : p.tree.lookup? top = some .folder) : p.trace s = .ok ((p.survey s).run ∅) := by
  rw [trace, if_pos (isFolder_iff.mpr ⟨top, hroot, hfolder⟩)]

/-- An analysis finds the same under all paths of a folder that keep what it comes across within the
limits alike. -/
theorem analyze_of_spelling (p : Project) (root : Bytes) (s : Settings) (top : Location)
    (hfolder : p.tree.lookup? top = some .folder) (h : SpelledAlike p root top) :
    (∃ found found', p.trace s = .ok found ∧ (p.spelled root).trace s = .ok found' ∧
      found'.graph = found.graph ∧ found'.stats = found.stats) ∧
    ∃ a events events', p.analyze s = .ok (a, events) ∧ a.root = p.rootText ∧
      (p.spelled root).analyze s = .ok ({ a with root := decodeLenient root }, events') := by
  have hdir : p.tree.isFolder p.cwd p.root = true := isFolder_iff.mpr ⟨top, h.resolve, hfolder⟩
  have hdir' : (p.spelled root).tree.isFolder (p.spelled root).cwd (p.spelled root).root = true :=
    isFolder_iff.mpr ⟨top, h.resolve', hfolder⟩
  have hgraph : (((p.spelled root).survey s).run ∅).graph = ((p.survey s).run ∅).graph :=
    (h.run_eq (Candidate.excludesWith s.excludes) ∅).1
  have hstats : (((p.spelled root).survey s).run ∅).stats = ((p.survey s).run ∅).stats :=
    (h.run_eq (Candidate.excludesWith s.excludes) ∅).2
  have htrace : p.trace s = .ok ((p.survey s).run ∅) := trace_of_resolve h.resolve hfolder
  have htrace' : (p.spelled root).trace s = .ok (((p.spelled root).survey s).run ∅) :=
    trace_of_resolve (p := p.spelled root) h.resolve' hfolder
  refine ⟨⟨_, _, htrace, htrace', hgraph, hstats⟩, ?_⟩
  obtain ⟨a, events, ha⟩ := exists_analyze (s := s) hdir
  obtain ⟨a', events', ha'⟩ := exists_analyze (s := s) hdir'
  have hall : a.root = p.rootText ∧ a' = { a with root := decodeLenient root } := by
    simp only [analyze, htrace, Except.ok.injEq, Prod.mk.injEq] at ha
    simp only [analyze, htrace', Except.ok.injEq, Prod.mk.injEq] at ha'
    rw [← ha.1, ← ha'.1, hgraph, hstats]
    exact ⟨rfl, by dsimp only [spelled, rootText]⟩
  obtain ⟨hroot, rfl⟩ := hall
  exact ⟨a, events, events', ha, hroot, ha'⟩

def linkedFolder : Project where
  tree := .ofEntries
    [(["app"], .folder), (["app", "old.css"], .file [] false), (["current"], .link "app")]
    (by decide)
  cwd := []
  root := "/app"

theorem comesAcross_linkedFolder {names : List Bytes}
    (h : ComesAcross linkedFolder.tree ["app"] names) :
    names = [] ∨ names = [encode "old.css"] := by
  obtain ⟨lead, more, links, m, e, hlead, rfl, hleads, he⟩ := h
  have honly {rest : List Bytes} {e : Entry}
      (he : linkedFolder.tree.lookup? (encode "app" :: rest) = some e) :
      rest = [] ∨ rest = [encode "old.css"] := by
    have hmem := (lookup?_eq_some_iff (by simp)).mp he
    simp only [linkedFolder, toList_ofEntries, List.mem_cons, Prod.mk.injEq, List.cons.injEq] at hmem
    simp_all
    tauto
  -- No start but the folder itself is there.
  have hnil : lead = [] := by
    by_contra hne
    obtain ⟨name, rest, rfl⟩ := List.exists_cons_of_ne_nil hne
    obtain ⟨e', he'⟩ := hleads.exists_first (isName_of_isStart hlead name List.mem_cons_self)
    obtain rfl : name = encode "old.css" := by simpa using honly he'
    rcases hlead with hlead | hlead | ⟨kind, hlead⟩
    · simp at hlead
    · simp at hlead
    · cases kind <;> simp [folderNames] at hlead
  subst hnil
  cases hleads
  exact honly he

theorem spelledAlike_linkedFolder : SpelledAlike linkedFolder "/current/" ["app"] := by
  have happ : linkedFolder.tree.lookup? ([] ++ [encode "app"]) = some .folder := rfl
  have hcurrent : linkedFolder.tree.lookup? ([] ++ [encode "current"]) = some (.link "app") := rfl
  have hplain : linkedFolder.tree.resolve linkedFolder.cwd linkedFolder.root = .ok ["app"] := by
    have hsteps : steps "/app" = [encode "app"] := by decide
    have hwalk : linkedFolder.tree.Leads [] (steps "/app") [] ["app"] := by
      rw [hsteps]
      exact .enter happ (by simp) (.done _)
    exact resolve_eq_ok_iff.mpr ⟨by decide, [], by decide, hwalk⟩
  have hlinked : linkedFolder.tree.resolve linkedFolder.cwd "/current/" = .ok ["app"] := by
    have hsteps : steps "/current/" = [encode "current", encode "."] := by decide
    have hwalk : linkedFolder.tree.Leads [] (steps "/current/") [["current"]] ["app"] := by
      have htarget : steps "app" ++ [encode "."] = [encode "app", encode "."] := by decide
      rw [hsteps]
      refine .jump hcurrent ?_
      rw [htarget]
      exact .enter happ (by simp) (.stay rfl rfl (.done _))
    exact resolve_eq_ok_iff.mpr ⟨by decide, [["current"]], by decide, hwalk⟩
  refine ⟨hplain, hlinked, fun names hnames => ?_⟩
  rcases comesAcross_linkedFolder hnames with rfl | rfl
  · exact iff_of_true (isWithinLimits_of_resolve hplain) (isWithinLimits_of_resolve hlinked)
  · have hfile : linkedFolder.tree.lookup? ([encode "app"] ++ [encode "old.css"]) =
        some (.file [] false) := rfl
    exact iff_of_true
      (isWithinLimits_of_plain hplain (by simp) hfile (by simp) (by decide))
      (isWithinLimits_of_plain hlinked (by simp) hfile (by simp) (by decide))

theorem analyze_of_spelling_linkedFolder :
    linkedFolder.tree.lookup? ["app"] = some .folder ∧
      SpelledAlike linkedFolder "/current/" ["app"] ∧
      ∃ a events events', linkedFolder.analyze {} = .ok (a, events) ∧
        (linkedFolder.spelled "/current/").analyze {} =
          .ok ({ a with root := "/current/" }, events') := by
  have hfolder : linkedFolder.tree.lookup? ["app"] = some .folder := rfl
  obtain ⟨-, a, events, events', ha, -, ha'⟩ :=
    analyze_of_spelling linkedFolder "/current/" {} ["app"] hfolder spelledAlike_linkedFolder
  exact ⟨hfolder, spelledAlike_linkedFolder, a, events, events', ha, ha'⟩

/-- A project with a link to its own folder, and a file that is come to by another link. -/
def selfLinked : Project where
  tree := .ofEntries
    [(["old.css"], .link "x"), (["self"], .link "."), (["x"], .file [] false)] (by decide)
  cwd := []
  root := "/"

def selfPath (n : Nat) : Bytes := pathBelow "/" (List.replicate n (encode "self"))

theorem isName_of_replicate_self {n : Nat} :
    ∀ name ∈ List.replicate n (encode "self"), IsName name := by
  intro name hname
  rw [List.eq_of_mem_replicate hname]
  decide

theorem leads_self (n : Nat) :
    selfLinked.tree.Leads [] (List.replicate n (encode "self"))
      (List.replicate n [encode "self"]) [] := by
  have hlink : selfLinked.tree.lookup? ([] ++ [encode "self"]) = some (.link ".") := rfl
  induction n with
  | zero => exact .done []
  | succ n ih => exact .jump hlink (.stay rfl rfl ih)

theorem leads_selfPath {n : Nat} (hn : n ≠ 0) : selfLinked.tree.Leads (origin [] (selfPath n))
    (steps (selfPath n)) (List.replicate n [encode "self"]) [] := by
  have hparts : Path.parts "/" = [] := by decide
  have horigin : origin [] "/" = [] := rfl
  rw [selfPath, origin_pathBelow [] "/" isName_of_replicate_self,
    steps_pathBelow "/" (by simpa) isName_of_replicate_self, hparts, horigin]
  exact leads_self n

theorem resolve_selfPath {n : Nat} (hn : n ≠ 0) (hlimit : n ≤ linkLimit)
    (hsize : (selfPath n).length ≤ pathLimit) :
    selfLinked.tree.resolve [] (selfPath n) = .ok [] := by
  refine resolve_eq_ok_iff.mpr ⟨?_, _, by simpa, leads_selfPath hn⟩
  exact (pathFault?_pathBelow_iff (by decide) (by simpa) isName_of_replicate_self).mpr hsize

theorem length_selfPath (n : Nat) : (selfPath n).length ≤ 5 * n + 1 := by
  induction n with
  | zero => exact Nat.le_refl 1
  | succ n ih =>
    have hself : (encode "self").length = 4 := by decide
    have hjoin := length_join_le (selfPath n) (encode "self")
    have hlonger : selfPath (n + 1) = Path.join (selfPath n) "self" := by
      rw [selfPath, List.replicate_succ', pathBelow_append, pathBelow_singleton, selfPath]
    rw [hlonger]
    omega

theorem resolve_selfPath_linkLimit :
    selfLinked.tree.resolve selfLinked.cwd (selfPath linkLimit) = .ok [] :=
  resolve_selfPath (by decide) (Nat.le_refl _) ((length_selfPath _).trans (by decide))

/-- Behind as many links as are followed one more is too many. -/
theorem isFile_selfPath :
    selfLinked.tree.isFile selfLinked.cwd (pathBelow (selfPath linkLimit) ["old.css"]) = false := by
  refine eq_false_of_ne_true fun hfile => ?_
  obtain ⟨content, executable, hentry⟩ := isFile_iff.mp hfile
  obtain ⟨l, hl, -⟩ := entryAt_eq_ok_iff.mp hentry
  obtain ⟨-, first, last, hfirst, hlast, hlimit⟩ :=
    (resolve_pathBelow_iff resolve_selfPath_linkLimit (by simp) (by decide)).mp hl
  obtain ⟨rfl, -⟩ := hfirst.unique (leads_selfPath (by decide))
  have hlink : selfLinked.tree.lookup? ([] ++ [encode "old.css"]) = some (.link "x") := rfl
  cases hlast with
  | stay dot _ _ => exact absurd dot (by decide)
  | up dots _ _ => exact absurd dots (by decide)
  | enter entry plain _ =>
    rw [hlink, Option.some.injEq] at entry
    exact plain _ entry.symm
  | jump _ _ =>
    simp only [List.length_replicate, List.length_cons] at hlimit
    omega

theorem not_hasFile_selfPath : ¬ (selfLinked.spelled (selfPath linkLimit)).HasFile "old.css" := by
  rintro ⟨top, names, name, htop, -, hpath, hentry⟩
  rw [tree_spelled, cwd_spelled, root_spelled, resolve_selfPath_linkLimit, Except.ok.injEq] at htop
  subst htop
  have hlink : selfLinked.tree.lookup? ["old.css"] = some (.link "x") := rfl
  have hproper : ∀ n ∈ names ++ [name], IsName n := by
    rcases hentry with ⟨content, executable, he⟩ | ⟨⟨target, he⟩, -⟩
    · exact isName_of_lookup? he
    · exact isName_of_lookup? he
  have hnames : [encode "old.css"] = names ++ [name] :=
    Path.textOf_inj (by simp) (by decide) (by simp) hproper (by decide)
      ((Path.textOf_map_encode ["old.css"]).trans hpath)
  rw [← hnames] at hentry
  rcases hentry with ⟨content, executable, he⟩ | ⟨-, hfile⟩
  · exact absurd (hlink.symm.trans he) (by simp)
  · rw [tree_spelled, cwd_spelled, root_spelled] at hfile
    exact absurd (isFile_selfPath.symm.trans hfile) (by decide)

/-- Two paths of one folder, under one of which a file is a candidate and under the other not. -/
theorem traces_differ {p : Project} {root root' : Bytes} {path : String} {top : Location}
    (hroot : p.tree.resolve p.cwd root = .ok top) (hroot' : p.tree.resolve p.cwd root' = .ok top)
    (hfolder : p.tree.lookup? top = some .folder) (hfile : (p.spelled root).HasFile path)
    (hnone : ¬ (p.spelled root').HasFile path)
    (hname : ∃ suffix ∈ Candidate.suffixes, endsWith path suffix = true)
    (hexcludes : ∀ e ∈ Candidate.excludesWith [], startsWith path e = false) :
    ∃ found found', (p.spelled root).trace {} = .ok found ∧ (p.spelled root').trace {} = .ok found' ∧
      path ∈ found.graph.candidates ∧ path ∉ found'.graph.candidates := by
  refine ⟨_, _, trace_of_resolve hroot hfolder, trace_of_resolve hroot' hfolder, ?_, ?_⟩
  · rw [Survey.mem_candidates_run]
    exact .inl (mem_candidates_iff.mpr ⟨hfile, hname, hexcludes⟩)
  · rw [Survey.mem_candidates_run]
    rintro (hmem | hmem)
    · exact hnone (mem_candidates_iff.mp hmem).1
    · exact UsageGraph.not_mem_candidates_empty hmem

/-- At the limit for the length of a path, and at that for the links on the way, it matters under
which path of its folder a project is analysed. -/
theorem spelling_matters_at_limits :
    (farAway.tree.resolve farAway.cwd "/" = .ok [] ∧
      farAway.tree.resolve farAway.cwd (slashes pathLimit) = .ok [] ∧
      farAway.tree.lookup? [] = some .folder ∧ ∃ found found',
        (farAway.spelled "/").trace {} = .ok found ∧
        (farAway.spelled (slashes pathLimit)).trace {} = .ok found' ∧
        "a/x.css" ∈ found.graph.candidates ∧ "a/x.css" ∉ found'.graph.candidates) ∧
    (selfLinked.tree.resolve selfLinked.cwd "/" = .ok [] ∧
      selfLinked.tree.resolve selfLinked.cwd (selfPath linkLimit) = .ok [] ∧
      selfLinked.tree.lookup? [] = some .folder ∧ ∃ found found',
        (selfLinked.spelled "/").trace {} = .ok found ∧
        (selfLinked.spelled (selfPath linkLimit)).trace {} = .ok found' ∧
        "old.css" ∈ found.graph.candidates ∧ "old.css" ∉ found'.graph.candidates) := by
  constructor
  · have hroot : farAway.tree.resolve farAway.cwd (slashes pathLimit) = .ok [] := resolve_farAway
    have hfile : (farAway.spelled "/").HasFile "a/x.css" :=
      ⟨[], ["a"], "x.css", resolve_top _ _, .of_entry rfl (by decide), by decide,
        .inl ⟨[], false, by decide⟩⟩
    have hnone : ¬ (farAway.spelled (slashes pathLimit)).HasFile "a/x.css" :=
      not_hasFile_farAway _
    exact ⟨resolve_top _ _, hroot, rfl, traces_differ (resolve_top _ _) hroot rfl hfile hnone
      ⟨".css", by decide, by decide⟩ (by decide)⟩
  · have hfile : (selfLinked.spelled "/").HasFile "old.css" := by
      have hsteps : steps "/old.css" = [encode "old.css"] := by decide
      have hwalk : selfLinked.tree.Leads [] (steps "/old.css") [["old.css"]] ["x"] := by
        have hlink : selfLinked.tree.lookup? ([] ++ [encode "old.css"]) = some (.link "x") := rfl
        rw [hsteps]
        exact .jump hlink (.enter rfl (by simp) (.done _))
      have hresolve : selfLinked.tree.resolve [] "/old.css" = .ok ["x"] :=
        resolve_eq_ok_iff.mpr ⟨by decide, [["old.css"]], by decide, hwalk⟩
      have hfile : selfLinked.tree.isFile [] "/old.css" = true :=
        isFile_iff.mpr ⟨[], false, entryAt_eq_ok_iff.mpr ⟨["x"], hresolve, rfl⟩⟩
      exact ⟨[], [], "old.css", resolve_top _ _, .root, rfl, .inr ⟨⟨"x", rfl⟩, hfile⟩⟩
    exact ⟨resolve_top _ _, resolve_selfPath_linkLimit, rfl,
      traces_differ (resolve_top _ _) resolve_selfPath_linkLimit rfl hfile not_hasFile_selfPath
        ⟨".css", by decide, by decide⟩ (by decide)⟩

end UnusedAssets.Project
