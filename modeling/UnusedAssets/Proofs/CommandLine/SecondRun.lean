import UnusedAssets.Proofs.CommandLine.AlikeRuns
import UnusedAssets.Proofs.CommandLine.JsonOutput
import UnusedAssets.Proofs.CommandLine.WrittenFiles
import UnusedAssets.Proofs.Config
import UnusedAssets.Proofs.Survey.Provenance
import UnusedAssets.Proofs.Survey.UnseenFile

/-!
# Running again

A run leaves a script behind, and the next run finds it in the tree. If the script stands apart from
all that a run looks at, the next run comes out alike (`second_run`). Else it may not: a script in the
folder of the routes is a route to the next run, and one that a link leads to under the name of a
candidate is a candidate (`script_is_found`).
-/

namespace UnusedAssets.CommandLine

open Text FileTree

/-- A run looks at nothing that leads to a location: what leads there has a name that nothing looks
for, marks no root, names no configuration and does not stand in the folder of the routes. -/
def StandsApart (p : Project) (t' : FileTree) (l : Location) : Prop :=
  ∀ here name, t'.NameLeadsTo here name l →
    IsUnsoughtName name ∧ name ∉ rootMarkers.map encode ∧ name ≠ encode Config.fileName ∧
      p.tree.resolve p.cwd (p.pathTo Layout.routesDir) ≠ .ok here

/-- Neither the options nor the configuration name a file to write. -/
structure LeavesNames (o : Options) (p : Project) : Prop where
  script : o.script = none
  dotFile : o.dotFile = none
  config : (configOf p).1.scriptName? = none

/-- A second run with the same words, later and in the tree that the first one left. -/
def executeAgain (w : Surroundings) (words : List String) (later : Timestamp) : Outcome :=
  execute { w with tree := (execute w words).tree, now := later } words

variable {w : Surroundings} {o : Options} {p : Project} {script : Option String} {a : Analysis}
  {events : List Event} {words : List String} {path : String} {l : Location} {t' : FileTree}

/-- A run finds the same with a file that stands apart. -/
theorem sameFindings_of_standsApart (later : Timestamp) (hp : project? w o = some p)
    (hadds : w.tree.AddsFile t' l) (happart : StandsApart p t' l) :
    SameFindings w { w with tree := t', now := later } o p (p.inTree t') := by
  obtain ⟨top, htop, rfl⟩ := Option.map_eq_some_iff.mp hp
  obtain ⟨m, hm⟩ := exists_locate htop
  have hunseen : Unseen ⟨w.tree, w.cwd, Location.path top⟩ t' l :=
    ⟨hadds, fun here name hname => ⟨(happart here name hname).1, (happart here name hname).2.2.2⟩⟩
  have hmarks : t'.MarksNoRoot l := fun here name hmarker hname =>
    (happart here name hname).2.1 (List.mem_map_of_mem hmarker)
  have htop' : t'.projectRoot? w.cwd (o.path.getD ".") = some top := by
    rw [hadds.projectRoot?_eq hmarks (.inl hm), htop]
  have hload : Config.load ⟨t', w.cwd, Location.path top⟩ =
      Config.load ⟨w.tree, w.cwd, Location.path top⟩ :=
    Config.load_of_added hadds fun here hname => (happart here _ hname).2.2.1 rfl
  exact {
    cwd := rfl
    reply := rfl
    frame := hadds.sameFrame
    found := hp
    found' := by rw [project?, htop', Option.map_some]; rfl
    root := rfl
    config := congrArg Prod.fst (configOf_congr hload)
    results := Project.analyze_of_unseen hunseen }

/-- Without a diagram the script is all that a run with an analysis writes. -/
theorem Analyzes.addsFile (h : Analyzes w o p script a events) (hdot : o.dotFile = none) :
    (run w o).tree = w.tree ∨ ∃ path l, script = some path ∧ w.tree.CanWrite w.cwd path l ∧
      w.tree.AddsFile (run w o).tree l := by
  obtain ⟨t, hscript, hdiagram⟩ := h.stages
  obtain rfl : (run w o).tree = t := by
    rcases hdiagram with htree | ⟨path, hpath, -⟩
    · exact htree
    · exact absurd (hdot.symm.trans hpath) (by simp)
  refine hscript.imp_right ?_
  rintro ⟨path, rfl, l, hcan, content, executable, hlookup⟩
  exact ⟨path, l, rfl, hcan, addsFile_of_written hcan hlookup⟩

/-- In the same tree a run comes out alike a second time. -/
theorem alike_of_same_tree (w : Surroundings) (o : Options) (later : Timestamp) :
    Alike w.tree w.tree (run w o) (run { w with now := later } o) := by
  let again : Surroundings := { w with now := later }
  have hsame : project? again o = project? w o := by rw [project?, project?]
  suffices halike : Alike w.tree again.tree (run w o) (run again o) from halike
  cases hp : project? w o with
  | none => exact alike_of_noProject hp (hsame.trans hp)
  | some p =>
    have hfindings : SameFindings w again o p p := {
      cwd := rfl
      reply := rfl
      frame := .refl w.tree
      found := hp
      found' := hsame.trans hp
      root := rfl
      config := rfl
      results := fun _ => rfl }
    exact alike_of_sameFindings hfindings

/-- A run that may name its files itself comes out alike a second time, if the script that it writes
stands apart. -/
theorem second_run (w : Surroundings) (words : List String) (later : Timestamp)
    (hnames : ∀ o p, request words = .ok (.run o) → project? w o = some p → LeavesNames o p)
    (happart : ∀ o p l, request words = .ok (.run o) → project? w o = some p →
      o.noScript = false → w.tree.resolveToWrite w.cwd RemovalScript.defaultName = .ok l →
        StandsApart p (execute w words).tree l) :
    Alike w.tree (execute w words).tree (execute w words) (executeAgain w words later) := by
  let again : Surroundings := { w with tree := (execute w words).tree, now := later }
  refine alike_execute w again words fun o hwords => ?_
  simp only [again, execute_of_request hwords]
  rcases stops_or_analyzes w o with hstops | ⟨p, script, a, events, ha⟩
  · rw [hstops.ending.2]
    exact alike_of_same_tree w o later
  · have hleaves := hnames o p hwords ha.found
    rcases ha.addsFile hleaves.dotFile with htree | ⟨path, l, rfl, hcan, hadds⟩
    · rw [htree]
      exact alike_of_same_tree w o later
    · obtain ⟨hwrites, hpath, -⟩ := of_scriptPath ha.accepts
      rw [hleaves.script, hleaves.config] at hpath
      obtain rfl : path = RemovalScript.defaultName := hpath
      have hl := happart o p l hwords ha.found hwrites hcan.leads
      rw [execute_of_request hwords] at hl
      exact alike_of_sameFindings (sameFindings_of_standsApart later ha.found hadds hl)

theorem isName_defaultName : IsName RemovalScript.defaultName := by decide

/-- Without links the script stands apart everywhere but in the folder of the routes. -/
theorem standsApart_of_linkFree {here : Location} (ht : t'.LinkFree)
    (hl : t'.lookup? (here ++ [encode RemovalScript.defaultName]) ≠ some .folder)
    (hroutes : p.tree.resolve p.cwd (p.pathTo Layout.routesDir) ≠ .ok here) :
    StandsApart p t' (here ++ [encode RemovalScript.defaultName]) := by
  intro there name hname
  obtain ⟨rfl, rfl⟩ := ht.of_nameLeadsTo hl hname
  exact ⟨by decide, by decide, by decide, hroutes⟩

/-- In a project at the top of the tree, without a configuration, a run has an analysis and writes
its script in the working directory. -/
theorem exists_analyzes_default (hp : project? w o = some ⟨w.tree, w.cwd, "/"⟩)
    (hconfig : w.tree.lookup? [encode Config.fileName] = none) (hscript : o.script = none)
    (hwrites : o.noScript = false) :
    ∃ a events, Analyzes w o ⟨w.tree, w.cwd, "/"⟩ (some RemovalScript.defaultName) a events := by
  obtain ⟨a, events, ha⟩ := Project.exists_analyze (p := ⟨w.tree, w.cwd, "/"⟩)
    (s := settingsFor o ⟨w.tree, w.cwd, "/"⟩) (isFolder_top _ _)
  refine ⟨a, events, hp, ?_, ha⟩
  rw [configOf_of_absent hconfig, scriptPath, hwrites, if_neg (by decide), hscript]
  rfl

/-- A script that can be written is all that a run without a diagram adds to the tree. -/
theorem Analyzes.lookup?_of_script (h : Analyzes w o p (some path) a events)
    (hdot : o.dotFile = none) (hcan : w.tree.CanWrite w.cwd path l) (m : Location) :
    (run w o).tree.lookup? m =
      if m = l then some (.file (encode (scriptOf w a)) true) else w.tree.lookup? m := by
  obtain ⟨t, hwrite, hlookup⟩ := RemovalScript.exists_write_of_canWrite hcan (scriptOf w a)
  have hsucceeds : ¬ FailsToWrite w (some path) a := by
    rintro ⟨path', f, hpath, hfails⟩
    obtain rfl := Option.some.inj hpath
    exact absurd (hfails.symm.trans hwrite) (by simp)
  obtain ⟨r, hrun, -, -, hsome⟩ := h.exists_drawDiagram hsucceeds
  obtain rfl := Except.ok.inj (hwrite.symm.trans (hsome path rfl))
  have htree : (drawDiagram w o (choosesJson o p) a.graph r).tree = r.tree := by
    rcases drawDiagram_tree with hsame | ⟨path', hpath, -⟩
    · exact hsame
    · exact absurd (hdot.symm.trans hpath) (by simp)
  rw [hrun, htree, hlookup]

theorem canWrite_default (hcwd : w.tree.lookup? w.cwd = some .folder)
    (hnew : w.tree.lookup? (w.cwd ++ [encode RemovalScript.defaultName]) = none) :
    w.tree.CanWrite w.cwd RemovalScript.defaultName (w.cwd ++ [encode RemovalScript.defaultName]) :=
  canWrite_new isName_defaultName hcwd hnew

theorem second_run_besideSite : ∃ o p, request siteWords = .ok (.run o) ∧
    project? besideSite o = some p ∧ LeavesNames o p ∧
    StandsApart p (execute besideSite siteWords).tree ["remove_unused_files.sh"] ∧
    Alike besideSite.tree (execute besideSite siteWords).tree (execute besideSite siteWords)
      (executeAgain besideSite siteWords ⟨1, 0⟩) := by
  have hwords : request siteWords = .ok (.run siteOptions) := by decide
  have hp : project? besideSite siteOptions = some ⟨besideSite.tree, [], "/"⟩ := project?_top rfl rfl
  have hleaves : LeavesNames siteOptions ⟨besideSite.tree, [], "/"⟩ :=
    ⟨rfl, rfl, by rw [configOf_of_absent (by decide)]; rfl⟩
  have hlinks : besideSite.tree.LinkFree :=
    Survey.linkFree_site _
  have hframe : besideSite.tree.SameFrame (execute besideSite siteWords).tree := by
    rw [execute_of_request hwords]
    exact sameFrame_run _ _
  have happart : StandsApart ⟨besideSite.tree, [], "/"⟩ (execute besideSite siteWords).tree
      ([] ++ [encode RemovalScript.defaultName]) := by
    refine standsApart_of_linkFree (hframe.linkFree hlinks) ?_ fun hroutes => ?_
    · exact fun hfolder => absurd (hframe.folder_iff.mpr hfolder) (by decide)
    · have hpath : Path.join (encode "/") (encode Layout.routesDir) = Location.path ["routes"] := by
        decide
      rw [Project.pathTo, hpath] at hroutes
      exact absurd (hlinks.eq_of_resolve_path (by decide) hroutes) (by simp)
  refine ⟨siteOptions, _, hwords, hp, hleaves, happart,
    second_run besideSite siteWords ⟨1, 0⟩ (fun o p ho hfound => ?_) fun o p l ho hfound _ hl => ?_⟩
  · obtain rfl : siteOptions = o := by simpa using hwords.symm.trans ho
    obtain rfl := Option.some.inj (hp.symm.trans hfound)
    exact hleaves
  · obtain rfl : siteOptions = o := by simpa using hwords.symm.trans ho
    obtain rfl := Option.some.inj (hp.symm.trans hfound)
    have hnew : besideSite.tree.resolveToWrite [] RemovalScript.defaultName =
        .ok ([] ++ [encode RemovalScript.defaultName]) :=
      resolveToWrite_new isName_defaultName rfl (by decide)
    obtain rfl := Except.ok.inj (hnew.symm.trans hl)
    exact happart

section Counterexample

variable {t : FileTree} {cwd : Location} {w' : Surroundings} {p' : Project} {a' : Analysis}
  {script' : Option String} {events' : List Event} {s : Settings}

/-- In a tree whose entries all stand at its top a survey visits nothing. -/
theorem visits_of_flat (hlinks : t.LinkFree)
    (hflat : ∀ l e, t.lookup? l = some e → l.length ≤ 1) : Survey.visits ⟨t, cwd, "/"⟩ = [] := by
  refine List.eq_nil_iff_forall_not_mem.mpr fun v hv => ?_
  obtain ⟨kind, hv⟩ := Survey.mem_visits_iff.mp hv
  have hproper : ∀ n ∈ Survey.folderNames kind, IsName n := Survey.isName_of_folderNames
  have hfolder : 0 < (Survey.folderNames kind).length :=
    List.length_pos_iff.mpr Survey.folderNames_ne_nil
  obtain ⟨names, hn, -⟩ := List.mem_map.mp hv
  obtain ⟨hne, -, top, e, htop, he, -⟩ := mem_filesBelow_iff.mp (List.mem_filter.mp hn).1
  rw [← Location.path_eq hproper] at htop
  obtain rfl := hlinks.eq_of_resolve_path hproper htop
  have hlength := hflat _ _ he
  have hnames := List.length_pos_iff.mpr hne
  rw [List.length_append] at hlength
  omega

theorem entryPaths_of_flat (hlinks : t.LinkFree)
    (hflat : ∀ l e, t.lookup? l = some e → l.length ≤ 1) :
    Survey.entryPaths ⟨t, cwd, "/"⟩ = [] := by
  have hpath : ∀ name ∈ Survey.entryFiles,
      Path.join (Path.join (encode "/") (encode Layout.publicDir)) (encode name) =
          Location.path ["public", name] ∧
        ∀ n ∈ ([encode "public", encode name] : Location), IsName n := by decide
  refine List.eq_nil_iff_forall_not_mem.mpr fun x hx => ?_
  obtain ⟨name, hname, hexists, -⟩ := Survey.mem_entryPaths_iff.mp hx
  obtain ⟨hjoin, hnames⟩ := hpath name hname
  obtain ⟨e, he⟩ := pathExists_iff.mp hexists
  rw [Project.pathTo, hjoin] at he
  obtain ⟨m, hr, hm⟩ := entryAt_eq_ok_iff.mp he
  obtain rfl := hlinks.eq_of_resolve_path hnames hr
  exact absurd (hflat _ _ hm) (by simp)

theorem not_mem_used_of_flat (hlinks : t.LinkFree)
    (hflat : ∀ l e, t.lookup? l = some e → l.length ≤ 1)
    (h : (Project.mk t cwd "/").analyze s = .ok (a, events)) (x : String) : x ∉ a.graph.used := by
  rw [Project.graph_of_analyze h, Survey.mem_used_run, Project.survey,
    entryPaths_of_flat hlinks hflat, visits_of_flat hlinks hflat]
  rintro (hentry | hvisit)
  · exact absurd hentry (by simp)
  · exact UsageGraph.not_mem_used_empty hvisit

/-- Any file in the folder of the routes is in use. -/
theorem mem_used_of_route {name content : Bytes} {executable : Bool}
    (h : (Project.mk t cwd "/").analyze s = .ok (a, events))
    (hfile : t.lookup? ([encode "routes"] ++ [name]) = some (.file content executable)) :
    Path.textOf [encode "routes", name] ∈ a.graph.used := by
  have hdir : t.resolve cwd (pathBelow "/" (Survey.folderNames .route)) = .ok [encode "routes"] := by
    have hfolder : t.lookup? ["routes"] = some .folder := lookup?_of_append hfile (by simp)
    rw [← Location.path_eq Survey.isName_of_folderNames]
    exact resolve_path hfolder (by simp) (by decide)
  have hopen : isListed (pathBelow "/" (Survey.folderNames .route)) [name] = true := by
    rw [isListed, List.dropLast_singleton]
    decide
  have hvisited : [name] ∈ Survey.visitedNames ⟨t, cwd, "/"⟩ .route :=
    List.mem_filter.mpr ⟨mem_filesBelow_iff.mpr ⟨by simp, hopen, _, _, hdir, hfile, rfl⟩, rfl⟩
  have hvisit : Survey.visitTo ⟨t, cwd, "/"⟩ .route [name] ∈ Survey.visits ⟨t, cwd, "/"⟩ :=
    Survey.mem_visits_iff.mpr ⟨.route, List.mem_map.mpr ⟨_, hvisited, rfl⟩⟩
  have hused := Survey.name_mem_used_run (s := Project.survey ⟨t, cwd, "/"⟩ s) (g := ∅)
    (Survey.mem_markedVisits_of_route hvisit rfl)
  rw [Project.graph_of_analyze h]
  exact hused

theorem not_mem_candidates_of_no_files (hfiles : ∀ l content executable,
    t.lookup? l ≠ some (.file content executable)) (excludes : List String) (x : String) :
    x ∉ (Project.mk t cwd "/").candidates excludes := by
  intro hx
  obtain ⟨⟨names, hn, -⟩, -⟩ := Project.mem_candidates.mp hx
  obtain ⟨-, -, top, e, -, he, hcounts⟩ := mem_filesBelow_iff.mp hn
  cases e with
  | file content executable => exact hfiles _ _ _ he
  | folder => exact absurd hcounts (by simp [countsAsFile])
  | link target =>
    obtain ⟨content, executable, hentry⟩ := isFile_iff.mp hcounts
    obtain ⟨m, -, hm⟩ := entryAt_eq_ok_iff.mp hentry
    exact hfiles _ _ _ hm

/-- Runs with the same JSON report have as many candidates and used files. -/
theorem sizes_of_output (ha : Analyzes w o p script a events)
    (ha' : Analyzes w' o p' script' a' events') (hjson : o.json = true)
    (houtput : (run w o).output = (run w' o).output) :
    a.graph.candidates.size = a'.graph.candidates.size ∧
      a.graph.used.size = a'.graph.used.size := by
  obtain ⟨hcandidates, hused⟩ :=
    ha.counts_of_output (.inl hjson) ha' (.inl hjson) houtput
  obtain ⟨hc, hu⟩ := Project.counts_of_analyze ha.analyzes
  obtain ⟨hc', hu'⟩ := Project.counts_of_analyze ha'.analyzes
  exact ⟨by rw [← hc, ← hc', hcandidates], by rw [← hu, ← hu', hused]⟩

theorem size_ne_of_mem {s s' : OrderedSet String} {x : String} (hempty : ∀ y, y ∉ s) (hx : x ∈ s') :
    s.size ≠ s'.size := by
  have hnil : s.toList = [] := List.eq_nil_iff_forall_not_mem.mpr hempty
  have hpos : 0 < s'.toList.length := List.length_pos_of_mem hx
  rw [OrderedSet.size, OrderedSet.size, hnil]
  exact hpos.ne

def inEmptyRoutes : Surroundings where
  tree := .ofEntries [(["artisan"], .file [] false), (["routes"], .folder)] (by decide)
  cwd := ["routes"]
  reply := .missing
  logFilter := none
  now := ⟨0, 0⟩

theorem flat_inEmptyRoutes : inEmptyRoutes.tree.LinkFree ∧
    ∀ l e, inEmptyRoutes.tree.lookup? l = some e → l.length ≤ 1 := by
  constructor
  · exact .of_entries (by simp [inEmptyRoutes, toList_ofEntries])
  · intro l e he
    rcases top_or_entry_of_lookup? he with ⟨rfl, -⟩ | hentry
    · simp
    · simp only [inEmptyRoutes, toList_ofEntries, List.mem_cons, Prod.mk.injEq, List.not_mem_nil,
        or_false] at hentry
      rcases hentry with ⟨rfl, -⟩ | ⟨rfl, -⟩ <;> simp

/-- The path from a folder at the top to the folder around it names the project at the top. -/
theorem project?_upwards (hcwd : w.cwd = [encode "routes"])
    (hfolder : w.tree.lookup? ["routes"] = some .folder) (hpath : o.path = some "..") :
    project? w o = some ⟨w.tree, w.cwd, "/"⟩ := by
  have hlocate : w.tree.locate ["routes"] ".." = .ok [] :=
    locate_eq_ok_iff.mpr ⟨by decide, by decide, [], by simp,
      .up rfl (isFolderAt_iff.mpr hfolder) (.done _)⟩
  rw [project?, hcwd, hpath, Option.getD_some, projectRoot?, hlocate]
  simp only [nearestRoot?_top, Option.map_some]
  rfl

theorem output_inEmptyRoutes : (execute inEmptyRoutes ["--json", ".."]).output ≠
    (executeAgain inEmptyRoutes ["--json", ".."] ⟨1, 0⟩).output := by
  let o : Options := { json := true, path := some ".." }
  have hwords : request ["--json", ".."] = .ok (.run o) := by decide
  rw [executeAgain, execute_of_request hwords, execute_of_request hwords]
  let w' : Surroundings :=
    { inEmptyRoutes with tree := (run inEmptyRoutes o).tree, now := ⟨1, 0⟩ }
  suffices hne : (run inEmptyRoutes o).output ≠ (run w' o).output from hne
  obtain ⟨a, events, ha⟩ := exists_analyzes_default
    (project?_upwards (w := inEmptyRoutes) (o := o) rfl rfl rfl) rfl rfl rfl
  have hlookup := ha.lookup?_of_script rfl (canWrite_default rfl rfl)
  have hroutes : w'.tree.lookup? ["routes"] = some .folder :=
    (hlookup _).trans (if_neg (by decide))
  have hconfig : w'.tree.lookup? [encode Config.fileName] = none :=
    (hlookup _).trans (if_neg (by decide))
  have hscript : w'.tree.lookup? ([encode "routes"] ++ [encode RemovalScript.defaultName]) =
      some (.file (encode (scriptOf inEmptyRoutes a)) true) := (hlookup _).trans (if_pos rfl)
  obtain ⟨a', events', ha'⟩ := exists_analyzes_default
    (project?_upwards (w := w') (o := o) rfl hroutes rfl) hconfig rfl rfl
  intro houtput
  refine size_ne_of_mem (x := "routes/remove_unused_files.sh") ?_ ?_
    (sizes_of_output ha ha' rfl houtput).2
  · exact not_mem_used_of_flat flat_inEmptyRoutes.1 flat_inEmptyRoutes.2 ha.analyzes
  · exact mem_used_of_route ha'.analyzes hscript

/-- The surroundings of a run beside a link to where its script will be. -/
def besideLink : Surroundings where
  tree := .ofEntries [(["x.css"], .link "remove_unused_files.sh")] (by decide)
  cwd := []
  reply := .missing
  logFilter := none
  now := ⟨0, 0⟩

theorem output_besideLink : (execute besideLink ["--json"]).output ≠
    (executeAgain besideLink ["--json"] ⟨1, 0⟩).output := by
  let o : Options := { json := true }
  have hwords : request ["--json"] = .ok (.run o) := by decide
  rw [executeAgain, execute_of_request hwords, execute_of_request hwords]
  let w' : Surroundings := { besideLink with tree := (run besideLink o).tree, now := ⟨1, 0⟩ }
  suffices hne : (run besideLink o).output ≠ (run w' o).output from hne
  obtain ⟨a, events, ha⟩ := exists_analyzes_default
    (project?_top (w := besideLink) (o := o) rfl rfl) rfl rfl rfl
  have hlookup := ha.lookup?_of_script rfl (canWrite_default rfl rfl)
  have hconfig : w'.tree.lookup? [encode Config.fileName] = none :=
    (hlookup _).trans (if_neg (by decide))
  have hlink : w'.tree.lookup? ([] ++ [encode "x.css"]) = some (.link "remove_unused_files.sh") :=
    (hlookup _).trans (if_neg (by decide))
  have hscript : w'.tree.lookup? ([] ++ [encode "remove_unused_files.sh"]) =
      some (.file (encode (scriptOf besideLink a)) true) := (hlookup _).trans (if_pos rfl)
  obtain ⟨a', events', ha'⟩ := exists_analyzes_default
    (project?_top (w := w') (o := o) rfl rfl) hconfig rfl rfl
  intro houtput
  refine size_ne_of_mem (x := "x.css") ?_ ?_ (sizes_of_output ha ha' rfl houtput).1
  · intro x hx
    refine not_mem_candidates_of_no_files ?_ _ x ((Project.mem_graph_candidates ha.analyzes).mp hx)
    intro l content executable hl
    rcases top_or_entry_of_lookup? hl with ⟨-, he⟩ | hentry
    · exact absurd he (by simp)
    · simp [besideLink, toList_ofEntries] at hentry
  · have hsettings : settingsFor o ⟨w'.tree, w'.cwd, "/"⟩ = {} := by
      rw [settingsFor, configOf_of_absent hconfig]
      rfl
    rw [Project.mem_graph_candidates ha'.analyzes, hsettings, Project.mem_candidates]
    refine ⟨⟨[encode "x.css"], ?_, by decide⟩, by decide, by decide⟩
    have hwalk : w'.tree.Leads (origin [] "/x.css") (steps "/x.css") [[encode "x.css"]]
        ["remove_unused_files.sh"] := by
      have horigin : origin [] "/x.css" = [] := by decide
      have hsteps : steps "/x.css" = [encode "x.css"] := by decide
      have horigin' : origin [] "remove_unused_files.sh" = [] := by decide
      have htarget : steps "remove_unused_files.sh" = [encode "remove_unused_files.sh"] := by
        decide
      rw [horigin, hsteps]
      refine .jump hlink ?_
      rw [horigin', htarget]
      exact .enter hscript (by simp) (.done _)
    have hresolve : w'.tree.resolve [] "/x.css" = .ok [encode "remove_unused_files.sh"] :=
      resolve_eq_ok_iff.mpr ⟨by decide, _, by decide, hwalk⟩
    have hfile : w'.tree.isFile [] "/x.css" = true :=
      isFile_iff.mpr ⟨_, _, entryAt_eq_ok_iff.mpr ⟨_, hresolve, hscript⟩⟩
    have hpath : pathBelow (encode "/") [encode "x.css"] = encode "/x.css" := by decide
    exact mem_filesBelow_iff.mpr ⟨by simp, by decide, [], _, resolve_top _ _, hlink,
      (congrArg (w'.tree.isFile []) hpath).trans hfile⟩

end Counterexample

/-- A script in the folder of the routes is a route to the next run, and one to which a link leads
under the name of a candidate is a candidate. -/
theorem script_is_found :
    (∃ o p, request ["--json", ".."] = .ok (.run o) ∧ project? inEmptyRoutes o = some p ∧
      LeavesNames o p ∧ (execute inEmptyRoutes ["--json", ".."]).output ≠
        (executeAgain inEmptyRoutes ["--json", ".."] ⟨1, 0⟩).output) ∧
    ∃ o p, request ["--json"] = .ok (.run o) ∧ project? besideLink o = some p ∧
      LeavesNames o p ∧ (execute besideLink ["--json"]).output ≠
        (executeAgain besideLink ["--json"] ⟨1, 0⟩).output := by
  constructor
  · exact ⟨{ json := true, path := some ".." }, _, by decide, project?_upwards rfl rfl rfl,
      ⟨rfl, rfl, by rw [configOf_of_absent (by decide)]; rfl⟩, output_inEmptyRoutes⟩
  · exact ⟨{ json := true }, _, by decide, project?_top rfl rfl,
      ⟨rfl, rfl, by rw [configOf_of_absent (by decide)]; rfl⟩, output_besideLink⟩

end UnusedAssets.CommandLine
