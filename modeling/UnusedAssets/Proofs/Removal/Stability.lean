import UnusedAssets.Proofs.Analysis
import UnusedAssets.Proofs.FileTree.LinkFree
import UnusedAssets.Proofs.Removal.Deletion
import UnusedAssets.Proofs.Removal.Exactness
import UnusedAssets.Proofs.Survey.Visits

/-!
# Analyses after a removal

In a tree without links the removal of the unused files is final: an analysis that follows finds
nothing more to remove and otherwise the same (`analyze_without_unused`). A visit to an unused file
never marks it, so it adds nothing to the graph, and the other visits read what they read before.
-/

namespace UnusedAssets

open Text FileTree

namespace Project

variable {p : Project} {paths : List String} {path : String} {top : Location}
  {names more : List Bytes} {e : Entry}

theorem linkFree_without (ht : p.tree.LinkFree) : (p.without paths).tree.LinkFree := by
  intro l target hl
  exact ht l target ((lookup?_removeAll_of_leaves (leaves_of_locationsOf p paths)).mp hl).1

/-- Without links a file below a folder of the project is a file of the project. -/
theorem append_mem_filesBelow (ht : p.tree.LinkFree) (htop : p.tree.resolve p.cwd p.root = .ok top)
    (hnames : ∀ n ∈ names, IsName n)
    (hmore : more ∈ p.tree.filesBelow p.cwd (pathBelow p.root names)) :
    names ++ more ∈ p.tree.filesBelow p.cwd p.root := by
  obtain ⟨hne, hlisted, here, e, hhere, he, hcounts⟩ := mem_filesBelow_iff.mp hmore
  have hfolder := lookup?_of_append he hne
  obtain ⟨-, rfl⟩ := (ht.resolve_pathBelow_iff htop hnames hfolder).mp hhere
  rw [isListed, ← pathBelow_append, ← List.dropLast_append_of_ne_nil hne] at hlisted
  rw [List.append_assoc] at he
  rw [← pathBelow_append] at hcounts
  exact mem_filesBelow_iff.mpr ⟨by simp [hne], hlisted, top, e, htop, he, hcounts⟩

section WithoutFiles

variable (ht : p.tree.LinkFree) (htop : p.tree.resolve p.cwd p.root = .ok top)
  (hfolder : p.tree.lookup? top = some .folder)

include ht htop hfolder

theorem entryAt_without_pathBelow (hnames : ∀ n ∈ names, IsName n)
    (hkept : Path.textOf names ∉ paths) :
    (p.without paths).tree.entryAt p.cwd (pathBelow p.root names) = .ok e ↔
      p.tree.entryAt p.cwd (pathBelow p.root names) = .ok e := by
  have htop' := (resolve_root_without paths htop hfolder).1
  rw [(linkFree_without ht).entryAt_pathBelow_iff htop' hnames,
    ht.entryAt_pathBelow_iff htop hnames]
  refine and_congr_right fun _ => ?_
  rw [without, lookup?_removeAll_of_leaves (leaves_of_locationsOf p paths),
    append_mem_locationsOf_iff htop]
  exact and_iff_left fun hgone => hkept hgone.2

theorem entriesBelow_without (hnames : ∀ n ∈ names, IsName n) :
    (p.without paths).tree.entriesBelow p.cwd (pathBelow p.root names) =
      (p.tree.entriesBelow p.cwd (pathBelow p.root names)).filter fun e =>
        decide (top ++ (names ++ e.1) ∉ p.locationsOf paths) := by
  have hleaves := leaves_of_locationsOf p paths
  have htop' := (resolve_root_without paths htop hfolder).1
  have hfolder_iff : (p.without paths).tree.lookup? (top ++ names) = some .folder ↔
      p.tree.lookup? (top ++ names) = some .folder := lookup?_removeAll_folder_iff hleaves
  rw [(linkFree_without ht).entriesBelow_eq htop' hnames, ht.entriesBelow_eq htop hnames]
  by_cases hopen : pathFault? (pathBelow p.root names) = none ∧
      p.tree.lookup? (top ++ names) = some .folder
  · rw [if_pos hopen, if_pos (hopen.imp_right hfolder_iff.mpr), without,
      below_removeAll_of_leaves hleaves]
    simp only [List.append_assoc]
  · rw [if_neg hopen, if_neg fun hafter => hopen (hafter.imp_right hfolder_iff.mp)]
    rfl

/-- The files that are left are listed in the same order. -/
theorem filesBelow_without (hnames : ∀ n ∈ names, IsName n) :
    (p.without paths).tree.filesBelow p.cwd (pathBelow p.root names) =
      (p.tree.filesBelow p.cwd (pathBelow p.root names)).filter fun more =>
        decide (Path.textOf (names ++ more) ∉ paths) := by
  have hgone : ((p.tree.filesBelow p.cwd (pathBelow p.root names)).filter fun more =>
        decide (Path.textOf (names ++ more) ∉ paths)) =
      (p.tree.filesBelow p.cwd (pathBelow p.root names)).filter fun more =>
        decide (top ++ (names ++ more) ∉ p.locationsOf paths) := by
    refine List.filter_congr fun more hmore => decide_eq_decide.mpr (not_congr ?_)
    rw [append_mem_locationsOf_iff htop, and_iff_right (append_mem_filesBelow ht htop hnames hmore)]
  rw [hgone, (linkFree_without ht).filesBelow_eq, ht.filesBelow_eq,
    entriesBelow_without ht htop hfolder hnames, List.filter_map, List.filter_filter,
    List.filter_filter]
  simp only [Function.comp_def, Bool.and_comm]

theorem hasFile_without_iff :
    (p.without paths).HasFile path ↔ p.HasFile path ∧ path ∉ paths := by
  have hnil : ∀ n ∈ ([] : List Bytes), IsName n := by simp
  have hfiles : (p.without paths).tree.filesBelow p.cwd p.root =
      (p.tree.filesBelow p.cwd p.root).filter fun more => decide (Path.textOf more ∉ paths) :=
    filesBelow_without ht htop hfolder hnil
  rw [hasFile_iff, hasFile_iff, cwd_without, root_without, hfiles]
  constructor
  · intro hmem
    obtain ⟨names, hnames, rfl⟩ := hmem
    obtain ⟨hnames, hkept⟩ := List.mem_filter.mp hnames
    exact ⟨⟨names, hnames, rfl⟩, of_decide_eq_true hkept⟩
  · intro hmem
    obtain ⟨⟨names, hnames, rfl⟩, hkept⟩ := hmem
    exact ⟨names, List.mem_filter.mpr ⟨hnames, decide_eq_true hkept⟩, rfl⟩

end WithoutFiles

end Project

namespace Survey

open Project

section WithoutFiles

variable {p : Project} {paths : List String} {top : Location} (ht : p.tree.LinkFree)
  (htop : p.tree.resolve p.cwd p.root = .ok top) (hfolder : p.tree.lookup? top = some .folder)

include ht htop hfolder

theorem visitsOf_without (kind : SourceKind) : visitsOf (p.without paths) kind =
    (visitsOf p kind).filter fun v => decide (v.name ∉ paths) := by
  rw [visitsOf, visitsOf, visitedNames, visitedNames, cwd_without, root_without,
    filesBelow_without ht htop hfolder isName_of_folderNames, List.filter_map,
    List.filter_filter, List.filter_filter]
  have hname (names : List Bytes) :
      (visitTo p kind names).name = Path.textOf (folderNames kind ++ names) := rfl
  simp only [Function.comp_def, hname, Bool.and_comm]
  rfl

theorem visits_without : visits (p.without paths) =
    (visits p).filter fun v => decide (v.name ∉ paths) := by
  rw [visits_eq, visits_eq, List.filter_append, List.filter_append]
  simp only [visitsOf_without ht htop hfolder]

theorem found_without {v : Visit} (hv : v ∈ visits p) (hkept : v.name ∉ paths) :
    found (p.without paths) v = found p v := by
  obtain ⟨kind, hv⟩ := mem_visits_iff.mp hv
  obtain ⟨names, hn, rfl⟩ := List.mem_map.mp hv
  refine found_congr fun text => ?_
  have hnames := isName_of_visited hn
  rw [readSource_eq_ok_iff, readSource_eq_ok_iff]
  simp only [visitTo, cwd_without, entryAt_without_pathBelow ht htop hfolder hnames hkept]

theorem mem_entryPaths_without_iff {path : String} (hkept : ∀ path ∈ entryPaths p, path ∉ paths) :
    path ∈ entryPaths (p.without paths) ↔ path ∈ entryPaths p := by
  rw [mem_entryPaths_iff, mem_entryPaths_iff]
  refine exists_congr fun name => and_congr_right fun hname => and_congr_left fun _ => ?_
  have hnames : ∀ n ∈ [encode Layout.publicDir, encode name], IsName n := by
    have hentries : ∀ name ∈ entryFiles, ∀ n ∈ [encode Layout.publicDir, encode name], IsName n := by
      decide
    exact hentries name hname
  have htext : Path.textOf [encode Layout.publicDir, encode name] =
      Layout.publicDir ++ "/" ++ name := Path.textOf_map_encode [Layout.publicDir, name]
  rw [pathExists_iff, pathExists_iff]
  constructor
  · intro hafter
    obtain ⟨e, he⟩ := hafter
    exact ⟨e, entryAt_of_without he⟩
  · intro hbefore
    have hentry : Layout.publicDir ++ "/" ++ name ∉ paths :=
      hkept _ (mem_entryPaths_iff.mpr ⟨name, hname, pathExists_iff.mpr hbefore, rfl⟩)
    obtain ⟨e, he⟩ := hbefore
    exact ⟨e, (entryAt_without_pathBelow ht htop hfolder hnames (htext ▸ hentry)).mpr he⟩

end WithoutFiles

/-- A run after a removal of files that are not used finds the same. -/
theorem run_without {s : Survey} {paths : List String} (ht : s.project.tree.LinkFree)
    (hroot : s.project.tree.isFolder s.project.cwd s.project.root = true)
    (hunused : ∀ path ∈ (s.run ∅).graph.used, path ∉ paths) :
    afterVisits (s.project.without paths) ∅ (visits (s.project.without paths)) =
        afterVisits s.project ∅ (visits s.project) ∧
      ∀ path, path ∈ entryPaths (s.project.without paths) ↔ path ∈ entryPaths s.project := by
  obtain ⟨top, htop, hfolder⟩ := isFolder_iff.mp hroot
  constructor
  · rw [visits_without ht htop hfolder]
    refine afterVisits_filter fun v hv => ?_
    have hkept := hunused _ (name_mem_used_run hv)
    exact ⟨decide_eq_true hkept,
      found_without ht htop hfolder (markedVisits_sublist.subset hv) hkept⟩
  · intro path
    refine mem_entryPaths_without_iff ht htop hfolder fun entry hentry => ?_
    exact hunused entry (mem_used_run.mpr (.inl hentry))

end Survey

namespace Project

open Survey

variable {p : Project} {s : Settings} {a a' : Analysis} {events events' : List Event}

theorem exists_analyze_without (h : p.analyze s = .ok (a, events)) :
    ∃ a' events', (p.without a.unused).analyze s = .ok (a', events') := by
  obtain ⟨top, htop, hfolder⟩ := isFolder_iff.mp (isFolder_of_analyze h)
  refine exists_analyze (isFolder_iff.mpr ⟨top, ?_⟩)
  exact resolve_root_without _ htop hfolder

section After

variable (ht : p.tree.LinkFree) (h : p.analyze s = .ok (a, events))
  (h' : (p.without a.unused).analyze s = .ok (a', events'))

include ht h h'

theorem candidates_after_iff (path : String) :
    path ∈ a'.graph.candidates ↔ path ∈ a.graph.candidates ∧ path ∉ a.unused := by
  obtain ⟨top, htop, hfolder⟩ := isFolder_iff.mp (isFolder_of_analyze h)
  rw [mem_graph_candidates h', mem_graph_candidates h, mem_candidates_iff, mem_candidates_iff,
    hasFile_without_iff ht htop hfolder]
  exact and_right_comm

theorem graph_after : a'.graph.used = a.graph.used ∧ a'.graph.edges = a.graph.edges ∧
    a'.graph.unresolved = a.graph.unresolved := by
  have hgraph := graph_of_analyze h
  have hkept : ∀ path ∈ ((p.survey s).run ∅).graph.used, path ∉ a.unused :=
    hgraph ▸ not_mem_unused_of_used h
  obtain ⟨hvisits, hentries⟩ :
      afterVisits (p.without a.unused) ∅ (visits (p.without a.unused)) =
        afterVisits p ∅ (visits p) ∧
      ∀ path, path ∈ entryPaths (p.without a.unused) ↔ path ∈ entryPaths p :=
    run_without (s := p.survey s) ht (isFolder_of_analyze h) hkept
  rw [graph_of_analyze h', hgraph]
  refine ⟨?_, ?_, ?_⟩
  · refine OrderedSet.ext_mem fun path => ?_
    rw [mem_used_run, mem_used_run, survey, survey, hvisits, hentries]
  · rw [edges_run, edges_run, survey, survey, hvisits]
  · rw [unresolved_run, unresolved_run, survey, survey, hvisits]

theorem unused_after : a'.unused = [] := by
  rw [List.eq_nil_iff_forall_not_mem]
  intro path hpath
  obtain ⟨hcandidate, hnot, hignored⟩ := (mem_unused h').mp hpath
  obtain ⟨hbefore, hkept⟩ := (candidates_after_iff ht h h' path).mp hcandidate
  rw [(graph_after ht h h').1] at hnot
  exact hkept ((mem_unused h).mpr ⟨hbefore, hnot, hignored⟩)

/-- What an ignore pattern leaves out is never removed. -/
theorem ignored_after : a'.ignored = a.ignored := by
  rw [ignored_of_analyze h', ignored_of_analyze h]
  refine OrderedSet.eq_of_mem_iff ((a'.graph.candidates.ascending.filter _).filter _)
    ((a.graph.candidates.ascending.filter _).filter _) fun path => ?_
  rw [List.mem_filter, List.mem_filter, UsageGraph.mem_unused, UsageGraph.mem_unused,
    (graph_after ht h h').1, candidates_after_iff ht h h' path]
  refine and_congr_left fun hignored => and_congr_left fun _ => and_iff_left fun hgone => ?_
  have hreported := ((mem_unused h).mp hgone).2.2
  rw [hignored] at hreported
  exact absurd hreported (by simp)

end After

/-- An analysis after the removal finds no unused file and everything else as before, and no file
that was removed had been marked. -/
theorem analyze_without_unused (ht : p.tree.LinkFree) (h : p.analyze s = .ok (a, events)) :
    ∃ a' events', (p.without a.unused).analyze s = .ok (a', events') ∧
      a'.unused = [] ∧ a'.ignored = a.ignored ∧
      a'.graph.used = a.graph.used ∧ a'.graph.edges = a.graph.edges ∧
      a'.graph.unresolved = a.graph.unresolved ∧
      (∀ path, path ∈ a'.graph.candidates ↔ path ∈ a.graph.candidates ∧ path ∉ a.unused) ∧
      (∀ v ∈ markedVisits p ∅ (visits p), v.name ∉ a.unused) ∧
      ∀ e ∈ a.graph.edges, e.source ∉ a.unused := by
  obtain ⟨a', events', h'⟩ := exists_analyze_without h
  obtain ⟨hused, hedges, hunresolved⟩ := graph_after ht h h'
  have hgraph := graph_of_analyze h
  have hmarked : ∀ v ∈ markedVisits p ∅ (visits p), v.name ∉ a.unused := by
    intro v hv
    refine not_mem_unused_of_used h _ ?_
    rw [hgraph]
    exact name_mem_used_run hv
  refine ⟨a', events', h', unused_after ht h h', ignored_after ht h h', hused, hedges, hunresolved,
    candidates_after_iff ht h h', hmarked, ?_⟩
  intro e he
  rw [hgraph, edges_run] at he
  rcases mem_edges_afterVisits.mp he with hnone | ⟨v, hv, hname, -⟩
  · exact absurd hnone UsageGraph.not_mem_edges_empty
  · rw [← hname]
    exact hmarked v hv

theorem analyze_without_unused_site : linkedSite.tree.LinkFree ∧
    ∃ a events, linkedSite.analyze siteSettings = .ok (a, events) ∧ DividesSite a ∧
      ∃ a' events', (linkedSite.without a.unused).analyze siteSettings = .ok (a', events') ∧
        a'.unused = [] ∧ "notes.txt" ∈ a'.ignored ∧
        "resources/views/about.blade.php" ∈ a'.graph.used := by
  have hlinks : linkedSite.tree.LinkFree := linkFree_site _
  obtain ⟨a, events, ha⟩ := exists_analyze (s := siteSettings) isFolder_linkedSite
  have hdivides := dividesSite ha
  obtain ⟨a', events', ha', hempty, hignored, hused, -⟩ := analyze_without_unused hlinks ha
  exact ⟨hlinks, a, events, ha, hdivides, a', events', ha', hempty, hignored ▸ hdivides.notes,
    hused ▸ hdivides.about.2⟩

end Project

end UnusedAssets
