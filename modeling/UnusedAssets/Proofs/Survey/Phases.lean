import UnusedAssets.Proofs.Survey.Visits

/-!
# What a phase does

A phase visits some files, marks what entry files are there, or lists candidates. Which of its visits
mark their file decides both the graph that it leaves (`graph_runPhase`) and what it counts
(`stats_runPhase`).
-/

namespace UnusedAssets

def SourceKind.phase : SourceKind → Phase
  | .route => .routes
  | .handler => .controllers
  | .template => .templates

namespace Survey

def visitsIn (p : Project) : Phase → List Visit
  | .routes => routeVisits p
  | .controllers => controllerVisits p
  | .templates => templateVisits p
  | .assets | .enumeration => []

def entriesIn (p : Project) : Phase → List String
  | .assets => entryPaths p
  | .routes | .controllers | .templates | .enumeration => []

def listedIn (s : Survey) : Phase → List String
  | .enumeration => s.project.candidates s.excludes
  | .routes | .controllers | .templates | .assets => []

def lookedAt (s : Survey) : Phase → Nat
  | .assets => entryFiles.length
  | phase => (s.listedIn phase).length

def isReadable (p : Project) (v : Visit) : Bool := (p.readSource v.path).isOk

def counters (s : Survey) (phase : Phase) (marked : List Visit) : PhaseStats where
  phase := phase
  visited := (visitsIn s.project phase).length + s.lookedAt phase
  marked := marked.length + (entriesIn s.project phase).length + (s.listedIn phase).length
  analyzed := marked.countP (isReadable s.project)
  failed := marked.countP fun v => !isReadable s.project v

variable {p : Project} {s : Survey} {g : UsageGraph} {v : Visit} {vs : List Visit}
  {b : Progress} {phase : Phase}

theorem visited_counters (s : Survey) (kind : SourceKind) (marked : List Visit) :
    (s.counters kind.phase marked).visited = (listedFor s.project kind).length := by
  rw [← map_path_visitsOf, List.length_map]
  cases kind <;>
    simp [counters, SourceKind.phase, visitsIn, lookedAt, listedIn, routeVisits_eq,
      controllerVisits_eq, templateVisits_eq]

theorem marked_counters (s : Survey) (kind : SourceKind) (marked : List Visit) :
    (s.counters kind.phase marked).marked = marked.length := by
  cases kind <;> simp [counters, SourceKind.phase, entriesIn, listedIn]

theorem analyzed_counters (s : Survey) (phase : Phase) (marked : List Visit) :
    (s.counters phase marked).analyzed = marked.countP (isReadable s.project) := rfl

theorem failed_counters (s : Survey) (phase : Phase) (marked : List Visit) :
    (s.counters phase marked).failed = marked.countP fun v => !isReadable s.project v := rfl

theorem length_eq_countP_isReadable (p : Project) (vs : List Visit) :
    vs.length = vs.countP (isReadable p) + vs.countP fun v => !isReadable p v := by
  rw [List.length_eq_countP_add_countP (isReadable p)]
  simp

theorem stats_visit_of_not_marked (h : v.isMarked b.graph = false) :
    (visit p b v).stats = { b.stats with visited := b.stats.visited + 1 } := by
  unfold visit
  rw [h]
  rfl

theorem stats_visit_of_marked (h : v.isMarked b.graph = true) :
    (visit p b v).stats = { b.stats with
      visited := b.stats.visited + 1
      marked := b.stats.marked + 1
      analyzed := b.stats.analyzed + if isReadable p v then 1 else 0
      failed := b.stats.failed + if isReadable p v then 0 else 1 } := by
  unfold visit isReadable Project.analyzeFile
  rw [if_pos h]
  cases p.readSource v.path <;> rfl

theorem stats_foldl_visit : (vs.foldl (visit p) b).stats = { b.stats with
    visited := b.stats.visited + vs.length
    marked := b.stats.marked + (markedVisits p b.graph vs).length
    analyzed := b.stats.analyzed + (markedVisits p b.graph vs).countP (isReadable p)
    failed := b.stats.failed +
      (markedVisits p b.graph vs).countP fun v => !isReadable p v } := by
  induction vs generalizing b with
  | nil => rfl
  | cons v vs ih =>
    rw [List.foldl_cons, ih, graph_visit, markedVisits]
    cases h : v.isMarked b.graph with
    | false =>
      rw [stats_visit_of_not_marked h]
      simp only [afterVisit, h, Bool.false_eq_true, ↓reduceIte, List.length_cons,
        PhaseStats.mk.injEq, true_and, and_true]
      omega
    | true =>
      rw [stats_visit_of_marked h]
      simp only [↓reduceIte, List.length_cons, List.countP_cons, PhaseStats.mk.injEq, true_and]
      cases isReadable p v <;> simp <;> omega

theorem stats_foldl_markEntry {names : List String} :
    (names.foldl (markEntry p) b).stats = { b.stats with
      visited := b.stats.visited + names.length
      marked := b.stats.marked + (names.filter fun name : String =>
        p.tree.pathExists p.cwd (Path.join (p.pathTo Layout.publicDir) name)).length } := by
  induction names generalizing b with
  | nil => rfl
  | cons name names ih =>
    rw [List.foldl_cons, ih]
    cases h : p.tree.pathExists p.cwd (Path.join (p.pathTo Layout.publicDir) name) with
    | false => simp [markEntry, h]; omega
    | true => simp [markEntry, h]; omega

theorem stats_foldl_addCandidate {paths : List String} :
    (paths.foldl addCandidate b).stats = { b.stats with
      visited := b.stats.visited + paths.length, marked := b.stats.marked + paths.length } := by
  induction paths generalizing b with
  | nil => rfl
  | cons path paths ih =>
    rw [List.foldl_cons, ih]
    simp [addCandidate]
    omega

theorem graph_runPhase (s : Survey) (phase : Phase) (g : UsageGraph) :
    (s.runPhase phase g).graph = withCandidates (withUsed
      (afterVisits s.project g (visitsIn s.project phase)) (entriesIn s.project phase))
        (s.listedIn phase) := by
  cases phase <;>
    simp only [runPhase, work, visitAll, graph_foldl_visit, graph_foldl_markEntry,
      graph_foldl_addCandidate, visitsIn, entriesIn, listedIn, entryPaths, afterVisits_nil,
      withUsed_nil, withCandidates_nil]

theorem stats_runPhase (s : Survey) (phase : Phase) (g : UsageGraph) :
    (s.runPhase phase g).stats =
      s.counters phase (markedVisits s.project g (visitsIn s.project phase)) := by
  cases phase <;>
    simp [runPhase, work, visitAll, stats_foldl_visit, stats_foldl_markEntry,
      stats_foldl_addCandidate, counters, visitsIn, entriesIn, listedIn, lookedAt, entryPaths,
      markedVisits]

end Survey

end UnusedAssets
