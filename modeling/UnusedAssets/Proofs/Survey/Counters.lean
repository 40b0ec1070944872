import Mathlib.Data.List.Dedup
import UnusedAssets.Proofs.Candidate.FarFolders
import UnusedAssets.Proofs.FileTree.PathsBelow
import UnusedAssets.Proofs.Survey.IllegibleFiles

/-!
# What a run counts

What the counters of the phases say about the files of a project (`run_counts`). A file that is listed
and marked can be searched unless its content spells no text or its path is too long to be handed over
(`isReadable_visited`). The second happens to a file in a folder whose own path is just short enough
(`counts_of_farRoutes_and_twins`).
-/

namespace UnusedAssets.Survey

open Text FileTree

variable {p : Project} {s : Survey} {g : UsageGraph} {v : Visit} {kind : SourceKind}
  {c : PhaseStats}

def isFar (v : Visit) : Bool := pathLimit < v.path.length

theorem exists_entryAt_of_mem_visits (h : v ∈ visits p) (hfar : isFar v = false) :
    ∃ content executable, p.tree.entryAt p.cwd v.path = .ok (.file content executable) := by
  obtain ⟨kind, h⟩ := mem_visits_iff.mp h
  obtain ⟨names, hn, rfl⟩ := List.mem_map.mp h
  rw [isFar, path_visitTo, decide_eq_false_iff_not, Nat.not_lt] at hfar
  rw [path_visitTo]
  exact exists_file_of_mem_filesBelow (List.mem_filter.mp hn).1 hfar

/-- A file that is visited can be searched unless it holds no text or is too far away. -/
theorem isReadable_visited (h : v ∈ visits p) :
    isReadable p v = !(holdsNoText p v || isFar v) := by
  cases hfar : isFar v with
  | true =>
    have hnone : ∀ content executable,
        p.tree.entryAt p.cwd v.path ≠ .ok (.file content executable) := by
      intro content executable hentry
      obtain ⟨l, hl, -⟩ := entryAt_eq_ok_iff.mp hentry
      have hlong : pathLimit < v.path.length := by simpa [isFar] using hfar
      have hshort := length_le_of_resolve hl
      omega
    rw [isReadable_of_no_file hnone, Bool.or_true, Bool.not_true]
  | false =>
    obtain ⟨content, executable, hentry⟩ := exists_entryAt_of_mem_visits h hfar
    rw [isReadable_of_file hentry, holdsNoText_of_file hentry]
    cases decode? content <;> rfl

theorem countP_unreadable {vs : List Visit} (h : ∀ v ∈ vs, v ∈ visits p) :
    (vs.countP fun v => !isReadable p v) = vs.countP fun v => holdsNoText p v || isFar v :=
  List.countP_congr fun v hv => by rw [isReadable_visited (h v hv), Bool.not_not]

/-- What the counters of a phase say that visits the files of a kind. -/
structure CountsFiles (s : Survey) (g : UsageGraph) (kind : SourceKind) (c : PhaseStats) :
    Prop where
  phase : c.phase = kind.phase
  visited : c.visited = (listedFor s.project kind).length
  marked : c.marked = (markedIn s.project g kind.phase).length
  /-- Every marked file is one of those that are listed, and in use after the run. -/
  listed : ((markedIn s.project g kind.phase).map (·.path)).Sublist (listedFor s.project kind)
  used : ∀ v ∈ markedIn s.project g kind.phase, v.name ∈ (s.run g).graph.used
  marked_le : c.marked ≤ c.visited
  marked_eq : c.marked = c.analyzed + c.failed
  failed : c.failed = (markedIn s.project g kind.phase).countP fun v =>
    holdsNoText s.project v || isFar v
  /-- A marked file that is not too far away has a content, which may spell no text. -/
  content : ∀ v ∈ markedIn s.project g kind.phase, isFar v = false → ∃ content executable,
    s.project.tree.entryAt s.project.cwd v.path = .ok (.file content executable) ∧
      (holdsNoText s.project v = true ↔ decode? content = none)

theorem countsFiles_of_eq (hc : c = s.counters kind.phase (markedIn s.project g kind.phase)) :
    CountsFiles s g kind c := by
  have hlisted : ((markedIn s.project g kind.phase).map (·.path)).Sublist
      (listedFor s.project kind) := by
    rw [← map_path_visitsOf]
    exact (markedIn_sublist s.project g kind).map _
  have hvisits : ∀ v ∈ markedIn s.project g kind.phase, v ∈ visits s.project := fun v hv =>
    mem_visits_iff.mpr ⟨kind, (markedIn_sublist s.project g kind).subset hv⟩
  have hvisited : c.visited = (listedFor s.project kind).length := by rw [hc, visited_counters]
  have hmarked : c.marked = (markedIn s.project g kind.phase).length := by
    rw [hc, marked_counters]
  have hfailed : c.failed =
      (markedIn s.project g kind.phase).countP fun v => !isReadable s.project v := by
    rw [hc, failed_counters]
  refine ⟨by rw [hc]; rfl, hvisited, hmarked, hlisted, ?_, ?_, ?_, ?_, ?_⟩
  · exact fun v hv => name_mem_used_run (List.mem_filter.mp hv).1
  · rw [hvisited, hmarked]
    simpa using hlisted.length_le
  · rw [hmarked, hfailed, hc, analyzed_counters, ← length_eq_countP_isReadable]
  · rw [hfailed, countP_unreadable hvisits]
  · intro v hv hfar
    obtain ⟨content, executable, hentry⟩ := exists_entryAt_of_mem_visits (hvisits v hv) hfar
    refine ⟨content, executable, hentry, ?_⟩
    rw [holdsNoText_of_file hentry, Option.isNone_iff_eq_none]

def entryCounts (p : Project) : PhaseStats where
  phase := .assets
  visited := entryFiles.length
  marked := entryFiles.countP fun name : String =>
    p.tree.pathExists p.cwd (Path.join (p.pathTo Layout.publicDir) name)
  analyzed := 0
  failed := 0

def candidateCounts (s : Survey) : PhaseStats where
  phase := .enumeration
  visited := (s.project.candidates s.excludes).length
  marked := (s.project.candidates s.excludes).length
  analyzed := 0
  failed := 0

theorem counters_assets (s : Survey) (g : UsageGraph) :
    s.counters .assets (markedIn s.project g .assets) = entryCounts s.project := by
  rw [markedIn_eq_nil fun kind => by cases kind <;> decide]
  simp [counters, entryCounts, visitsIn, lookedAt, entriesIn, listedIn, entryPaths,
    List.countP_eq_length_filter]

theorem counters_enumeration (s : Survey) (g : UsageGraph) :
    s.counters .enumeration (markedIn s.project g .enumeration) = s.candidateCounts := by
  rw [markedIn_eq_nil fun kind => by cases kind <;> decide]
  simp [counters, candidateCounts, visitsIn, lookedAt, entriesIn, listedIn]

theorem stats_run_eq (s : Survey) (g : UsageGraph) : (s.run g).stats =
    [s.counters .routes (markedIn s.project g .routes),
      s.counters .controllers (markedIn s.project g .controllers),
      s.counters .templates (markedIn s.project g .templates),
      entryCounts s.project, s.candidateCounts] := by
  rw [stats_run, ← counters_assets s g, ← counters_enumeration s g]
  rfl

/-- After a run from nothing there are as many candidates as there are paths of candidates. -/
theorem size_candidates_run (s : Survey) :
    (s.run ∅).graph.candidates.size = (s.project.candidates s.excludes).dedup.length := by
  refine OrderedSet.size_eq_length (List.nodup_dedup _) fun path => ?_
  rw [mem_candidates_run, or_iff_left UsageGraph.not_mem_candidates_empty, List.mem_dedup]

theorem dedup_candidates_sublist (s : Survey) :
    (s.project.candidates s.excludes).dedup.Sublist (s.project.candidates s.excludes) :=
  List.dedup_sublist _

theorem size_candidates_run_le (s : Survey) :
    (s.run ∅).graph.candidates.size ≤ s.candidateCounts.marked := by
  rw [size_candidates_run]
  exact (dedup_candidates_sublist s).length_le

theorem size_candidates_run_eq_iff (s : Survey) :
    (s.run ∅).graph.candidates.size = s.candidateCounts.marked ↔
      (s.project.candidates s.excludes).Nodup := by
  rw [size_candidates_run, candidateCounts, ← List.dedup_eq_self]
  exact ⟨(dedup_candidates_sublist s).eq_of_length, congrArg List.length⟩

/-- What a run counts. The phases that visit files count what is listed for them and which of these
they mark, search, or find that they cannot read; the other two count what is there. -/
theorem run_counts (s : Survey) (g : UsageGraph) : ∃ routes controllers templates,
    (s.run g).stats =
      [routes, controllers, templates, entryCounts s.project, s.candidateCounts] ∧
    CountsFiles s g .route routes ∧ CountsFiles s g .handler controllers ∧
    CountsFiles s g .template templates ∧ routes.marked = routes.visited ∧
    (s.run ∅).graph.candidates.size = (s.project.candidates s.excludes).dedup.length ∧
    (s.run ∅).graph.candidates.size ≤ s.candidateCounts.marked ∧
    ((s.run ∅).graph.candidates.size = s.candidateCounts.marked ↔
      (s.project.candidates s.excludes).Nodup) := by
  have hroutes : CountsFiles s g .route (s.counters .routes (markedIn s.project g .routes)) :=
    countsFiles_of_eq rfl
  refine ⟨_, _, _, stats_run_eq s g, hroutes, countsFiles_of_eq rfl, countsFiles_of_eq rfl, ?_,
    size_candidates_run s, size_candidates_run_le s, size_candidates_run_eq_iff s⟩
  rw [hroutes.marked, hroutes.visited, SourceKind.phase, markedIn_routes, ← map_path_visitsOf,
    List.length_map]

/-- A project whose folder of routes has as long a path as any, with a route file in it. -/
def farRoutes : Project where
  tree := .ofEntries [(["routes"], .folder), (["routes", "web.php"], .file [] false)]
    (by decide)
  cwd := []
  root := Project.slashes (pathLimit - 6)

theorem resolve_farRoutes : farRoutes.tree.resolve farRoutes.cwd farRoutes.root = .ok [] :=
  Project.resolve_slashes _ (by decide) (by decide)

/-- The folder can be opened, and nothing in it can be. -/
theorem length_farRoutes :
    (pathBelow farRoutes.root (folderNames .route)).length = pathLimit := by
  have hroot : farRoutes.root = Project.slashes (pathLimit - 6) := rfl
  have hnames : folderNames .route = [encode "routes"] := rfl
  have hname : (encode "routes").length = 6 := by decide
  rw [hnames, pathBelow_singleton, hroot, Project.join_slashes (by decide) (by decide),
    List.length_append, Project.length_slashes, hname]
  rfl

theorem isListed_singleton (dir name : Bytes) :
    isListed dir [name] = decide (dir.length ≤ pathLimit) := rfl

theorem visitedNames_farRoutes : visitedNames farRoutes .route = [[encode "web.php"]] := by
  have hlinks : farRoutes.tree.LinkFree := .of_entries (by simp [farRoutes])
  have hsize := length_farRoutes
  have hpath : pathFault? (pathBelow farRoutes.root (folderNames .route)) = none :=
    (pathFault?_pathBelow_iff (Project.not_mem_nul_slashes _) folderNames_ne_nil
      isName_of_folderNames).mpr hsize.le
  have hlisted : isListed (pathBelow farRoutes.root (folderNames .route)) [encode "web.php"] =
      true := by
    rw [isListed_singleton, decide_eq_true_eq]
    exact hsize.le
  have hbelow : farRoutes.tree.below ([] ++ folderNames .route) =
      [([encode "web.php"], .file [] false)] := by decide
  have hfolder : farRoutes.tree.lookup? ([] ++ folderNames .route) = some .folder := by
    decide
  rw [visitedNames_of_linkFree hlinks resolve_farRoutes hpath hfolder, hbelow]
  simp [hlisted, isVisited]

theorem isReadable_farRoute :
    isReadable farRoutes (visitTo farRoutes .route [encode "web.php"]) = false := by
  have hvisited : [encode "web.php"] ∈ visitedNames farRoutes .route := by
    rw [visitedNames_farRoutes]
    exact List.mem_singleton_self _
  have hfar : isFar (visitTo farRoutes .route [encode "web.php"]) = true := by
    have hlonger := length_lt_pathBelow (pathBelow farRoutes.root (folderNames .route))
      (ne_nil_of_visited hvisited) (isName_of_mem_filesBelow (List.mem_filter.mp hvisited).1)
    rw [length_farRoutes] at hlonger
    rw [isFar, path_visitTo]
    exact decide_eq_true hlonger
  rw [isReadable_visited (mem_visits_iff.mpr ⟨.route, List.mem_map_of_mem hvisited⟩), hfar,
    Bool.or_true, Bool.not_true]

/-- A marked file that holds a text cannot be read if its path is too long, and two files with one
path count twice and are one candidate. -/
theorem counts_of_farRoutes_and_twins :
    (farRoutes.tree.lookup? [encode "routes", encode "web.php"] = some (.file [] false) ∧
      decode? [] = some "" ∧
      (markedIn farRoutes ∅ .routes).map (·.name) = ["routes/web.php"] ∧
      (run ⟨farRoutes, []⟩ ∅).stats.head? =
        some { phase := .routes, visited := 1, marked := 1, analyzed := 0, failed := 1 }) ∧
    (run ⟨Project.twins, []⟩ ∅).stats.getLast?.map (·.marked) ≠
      some (run ⟨Project.twins, []⟩ ∅).graph.candidates.size := by
  have hvisits : visitsOf farRoutes .route = [visitTo farRoutes .route [encode "web.php"]] := by
    rw [visitsOf, visitedNames_farRoutes, List.map_singleton]
  refine ⟨⟨rfl, decode?_encode "", ?_, ?_⟩, fun hmarked => ?_⟩
  · rw [markedIn_routes, hvisits]
    rfl
  · rw [head?_stats_run, hvisits, List.length_singleton, List.countP_singleton,
      List.countP_singleton, isReadable_farRoute]
    rfl
  · rw [stats_run_eq] at hmarked
    exact Project.not_nodup_candidates_twins
      ((size_candidates_run_eq_iff _).mp (Option.some.inj hmarked).symm)

end UnusedAssets.Survey
