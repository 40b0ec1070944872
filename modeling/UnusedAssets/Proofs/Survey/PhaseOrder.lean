import UnusedAssets.Proofs.Survey.Evidence
import UnusedAssets.Proofs.Survey.Phases

/-!
# The order of the phases

The phases that mark the public entries and list the candidates ask nothing of the graph, and what
they add no visit asks for. So they may run at any point: the other phases find the same in any order
that keeps theirs (`run_in_any_order`). In general, phases in some order leave the graph of all their
visits in that order, with all their entries and candidates added (`graph_runIn`).
-/

namespace UnusedAssets.Survey

open Text

variable {p : Project} {s : Survey} {g : UsageGraph} {v : Visit} {vs : List Visit}
  {phase : Phase} {order order' : List Phase} {paths paths' more more' : List String}

theorem phase_of_mem_visitsIn (h : v ∈ visitsIn p phase) : v.kind.phase = phase := by
  cases phase with
  | routes =>
    rw [visitsIn, routeVisits_eq] at h
    rw [kind_of_mem_visitsOf h, SourceKind.phase]
  | controllers =>
    rw [visitsIn, controllerVisits_eq] at h
    rw [kind_of_mem_visitsOf h, SourceKind.phase]
  | templates =>
    rw [visitsIn, templateVisits_eq] at h
    rw [kind_of_mem_visitsOf h, SourceKind.phase]
  | assets => exact absurd h List.not_mem_nil
  | enumeration => exact absurd h List.not_mem_nil

theorem visits_eq_flatMap (p : Project) : visits p = Phase.all.flatMap (visitsIn p) := by
  simp [visits, Phase.all, visitsIn]

theorem not_mem_slash_of_visitsIn (h : v ∈ visitsIn p phase) : '/' ∉ v.known.toList := by
  refine not_mem_slash_known (p := p) ?_
  rw [visits_eq_flatMap, List.mem_flatMap]
  exact ⟨phase, by cases phase <;> decide, h⟩

theorem mem_slash_entriesIn {path : String} (h : path ∈ order.flatMap (entriesIn p)) :
    '/' ∈ path.toList := by
  obtain ⟨phase, -, h⟩ := List.mem_flatMap.mp h
  cases phase with
  | assets =>
    obtain ⟨name, -, -, rfl⟩ := mem_entryPaths_iff.mp h
    simp
  | routes => exact absurd h List.not_mem_nil
  | controllers => exact absurd h List.not_mem_nil
  | templates => exact absurd h List.not_mem_nil
  | enumeration => exact absurd h List.not_mem_nil

theorem withCandidates_withUsed_congr (hused : ∀ x, x ∈ paths ↔ x ∈ paths')
    (hcandidates : ∀ x, x ∈ more ↔ x ∈ more') : withCandidates (withUsed g paths) more =
      withCandidates (withUsed g paths') more' := by
  apply UsageGraph.ext_mem <;>
    simp [mem_candidates_withCandidates, mem_used_withUsed, hused, hcandidates]

theorem withCandidates_withUsed_append :
    withCandidates (withUsed (withCandidates (withUsed g paths) more) paths') more' =
      withCandidates (withUsed g (paths ++ paths')) (more ++ more') := by
  apply UsageGraph.ext_mem <;>
    simp only [mem_candidates_withCandidates, mem_used_withUsed, List.mem_append, or_assoc,
      or_left_comm, candidates_withUsed, used_withCandidates, edges_withUsed,
      edges_withCandidates, unresolved_withUsed, unresolved_withCandidates, implies_true]

theorem sameEvidence_withUsed (h : ∀ x ∈ paths, '/' ∈ x.toList) :
    (withCandidates (withUsed g paths) more).SameEvidence g := by
  constructor
  · intro x hx
    rw [used_withCandidates, mem_used_withUsed]
    exact or_iff_right fun hmem => hx (h x hmem)
  · simp

/-- Used paths with a slash, and candidates, may be added before or after some visits. -/
theorem afterVisits_withUsed (h : ∀ x ∈ paths, '/' ∈ x.toList)
    (hvs : ∀ v ∈ vs, '/' ∉ v.known.toList) :
    afterVisits p (withCandidates (withUsed g paths) more) vs =
      withCandidates (withUsed (afterVisits p g vs) paths) more := by
  have hmarked : markedVisits p (withCandidates (withUsed g paths) more) vs =
      markedVisits p g vs :=
    markedVisits_congr (sameEvidence_withUsed h) hvs fun _ _ _ _ => Iff.rfl
  apply UsageGraph.ext_mem <;>
    simp [candidates_afterVisits, mem_used_afterVisits, mem_edges_afterVisits,
      mem_unresolved_afterVisits, hmarked, mem_candidates_withCandidates, mem_used_withUsed,
      or_assoc]

/-- Some phases, one after the other. -/
def runIn (s : Survey) (order : List Phase) (g : UsageGraph) : Findings :=
  order.foldl (Findings.andRun s) { graph := g }

theorem run_eq_runIn (s : Survey) (g : UsageGraph) : s.run g = s.runIn Phase.all g := rfl

theorem graph_runIn_concat : (s.runIn (order ++ [phase]) g).graph =
    (s.runPhase phase (s.runIn order g).graph).graph := by
  simp [runIn, Findings.andRun]

theorem stats_runIn_concat : (s.runIn (order ++ [phase]) g).stats =
    (s.runIn order g).stats ++ [(s.runPhase phase (s.runIn order g).graph).stats] := by
  simp [runIn, Findings.andRun]

theorem graph_runIn (s : Survey) (order : List Phase) (g : UsageGraph) :
    (s.runIn order g).graph = withCandidates (withUsed
      (afterVisits s.project g (order.flatMap (visitsIn s.project)))
        (order.flatMap (entriesIn s.project))) (order.flatMap s.listedIn) := by
  induction order using List.reverseRecOn with
  | nil => rfl
  | append_singleton order phase ih =>
    rw [graph_runIn_concat, graph_runPhase, ih,
      afterVisits_withUsed (fun _ => mem_slash_entriesIn) fun _ => not_mem_slash_of_visitsIn,
      withCandidates_withUsed_append, ← afterVisits_append]
    simp only [List.flatMap_append, List.flatMap_cons, List.flatMap_nil, List.append_nil]

/-- When its turn comes a phase marks the same files as if there had been visits only. -/
theorem markedVisits_runIn : markedVisits s.project (s.runIn order g).graph
      (visitsIn s.project phase) =
    markedVisits s.project (afterVisits s.project g (order.flatMap (visitsIn s.project)))
      (visitsIn s.project phase) := by
  rw [graph_runIn]
  exact markedVisits_congr (sameEvidence_withUsed fun _ => mem_slash_entriesIn)
    (fun _ => not_mem_slash_of_visitsIn) fun _ _ _ _ => Iff.rfl

theorem filter_phase_of_not_mem {phases : List Phase} (h : phase ∉ phases)
    (hvs : ∀ v ∈ vs, v.kind.phase ∈ phases) :
    vs.filter (fun v => v.kind.phase = phase) = [] := by
  refine List.filter_eq_nil_iff.mpr fun v hv he => h ?_
  rw [← of_decide_eq_true he]
  exact hvs v hv

/-- What phases count in some order, none of them twice: each counts those of all the visits that
mark their file that are its own. -/
theorem stats_runIn (h : order.Nodup) : (s.runIn order g).stats = order.map fun phase =>
    s.counters phase ((markedVisits s.project g (order.flatMap (visitsIn s.project))).filter
      fun v => v.kind.phase = phase) := by
  induction order using List.reverseRecOn with
  | nil => rfl
  | append_singleton order phase ih =>
    obtain ⟨hbefore, -, hnew⟩ := List.nodup_append.mp h
    have hnew : phase ∉ order := fun hmem => hnew phase hmem phase (by simp) rfl
    -- The kind of a visit tells whether it belongs to the last phase or to one before.
    have hold : ∀ v ∈ markedVisits s.project g (order.flatMap (visitsIn s.project)),
        v.kind.phase ∈ order := by
      intro v hv
      obtain ⟨z, hz, hv⟩ := List.mem_flatMap.mp (markedVisits_sublist.subset hv)
      rwa [phase_of_mem_visitsIn hv]
    have hown : ∀ v ∈ markedVisits s.project (s.runIn order g).graph
        (visitsIn s.project phase), v.kind.phase ∈ [phase] :=
      fun v hv => List.mem_singleton.mpr (phase_of_mem_visitsIn (markedVisits_sublist.subset hv))
    rw [stats_runIn_concat, ih hbefore, stats_runPhase, List.map_append, List.map_singleton,
      List.flatMap_append, List.flatMap_singleton, markedVisits_append, ← markedVisits_runIn]
    congr 1
    · refine List.map_congr_left fun z hz => ?_
      have hz : z ∉ [phase] := fun he => hnew (List.mem_singleton.mp he ▸ hz)
      rw [List.filter_append, filter_phase_of_not_mem hz hown, List.append_nil]
    · rw [List.filter_append, filter_phase_of_not_mem hnew hold, List.nil_append,
        List.filter_eq_self.mpr fun v hv => decide_eq_true (List.mem_singleton.mp (hown v hv))]

/-- The visits of a run that mark their file and belong to one phase. -/
def markedIn (p : Project) (g : UsageGraph) (phase : Phase) : List Visit :=
  (markedVisits p g (visits p)).filter fun v => v.kind.phase = phase

theorem stats_run (s : Survey) (g : UsageGraph) : (s.run g).stats =
    Phase.all.map fun phase => s.counters phase (markedIn s.project g phase) := by
  rw [run_eq_runIn, stats_runIn (by decide), ← visits_eq_flatMap]
  rfl

theorem filter_visits (p : Project) (kind : SourceKind) :
    ((visits p).filter fun v => v.kind.phase = kind.phase) = visitsOf p kind := by
  have hown : ((visitsOf p kind).filter fun v => v.kind.phase = kind.phase) = visitsOf p kind :=
    List.filter_eq_self.mpr fun v hv => decide_eq_true (congrArg _ (kind_of_mem_visitsOf hv))
  have hother {kind' : SourceKind} (hne : kind.phase ∉ [kind'.phase]) :
      ((visitsOf p kind').filter fun v => v.kind.phase = kind.phase) = [] :=
    filter_phase_of_not_mem hne fun v hv => by
      rw [kind_of_mem_visitsOf hv]
      exact List.mem_singleton_self _
  rw [visits_eq, List.filter_append, List.filter_append]
  cases kind with
  | route => rw [hown, hother (by decide), hother (by decide), List.append_nil, List.append_nil]
  | handler => rw [hother (by decide), hown, hother (by decide), List.nil_append, List.append_nil]
  | template => rw [hother (by decide), hother (by decide), hown, List.nil_append, List.nil_append]

theorem markedIn_sublist (p : Project) (g : UsageGraph) (kind : SourceKind) :
    (markedIn p g kind.phase).Sublist (visitsOf p kind) := by
  rw [← filter_visits]
  exact markedVisits_sublist.filter _

theorem markedIn_eq_nil (h : ∀ kind : SourceKind, kind.phase ≠ phase) : markedIn p g phase = [] :=
  List.filter_eq_nil_iff.mpr fun v _ => by simpa using h v.kind

/-- Route files are marked whatever the graph says. -/
theorem markedIn_routes (p : Project) (g : UsageGraph) :
    markedIn p g .routes = visitsOf p .route := by
  refine (markedIn_sublist p g .route).antisymm ?_
  have hroutes : markedVisits p g (visitsOf p .route) = visitsOf p .route :=
    markedVisits_of_routes fun _ => kind_of_mem_visitsOf
  have hall : (visitsOf p .route).Sublist (markedVisits p g (visits p)) := by
    rw [visits_eq, List.append_assoc, markedVisits_append, hroutes]
    exact List.sublist_append_left _ _
  have hown : ((visitsOf p .route).filter fun v => v.kind.phase = .routes) = visitsOf p .route :=
    List.filter_eq_self.mpr fun v hv => decide_eq_true (congrArg _ (kind_of_mem_visitsOf hv))
  rw [markedIn, ← hown]
  exact hall.filter _

/-- The phase of the routes comes first and marks all that it visits. -/
theorem head?_stats_run (p : Project) (excludes : List String) (g : UsageGraph) :
    (run ⟨p, excludes⟩ g).stats.head? = some {
      phase := .routes
      visited := (visitsOf p .route).length
      marked := (visitsOf p .route).length
      analyzed := (visitsOf p .route).countP (isReadable p)
      failed := (visitsOf p .route).countP fun v => !isReadable p v } := by
  rw [stats_run, Phase.all, List.map_cons, List.head?_cons, markedIn_routes]
  simp [counters, visitsIn, routeVisits_eq, lookedAt, listedIn, entriesIn]

/-- Phases in another order leave the same graph and count the same, if their visits come in the
same order. -/
theorem runIn_of_perm (hperm : order.Perm order') (hnodup : order.Nodup)
    (hvisits : order.flatMap (visitsIn s.project) = order'.flatMap (visitsIn s.project)) :
    (s.runIn order g).graph = (s.runIn order' g).graph ∧
      (s.runIn order g).stats.Perm (s.runIn order' g).stats := by
  constructor
  · rw [graph_runIn, graph_runIn, hvisits]
    exact withCandidates_withUsed_congr (fun _ => (hperm.flatMap_right _).mem_iff)
      fun _ => (hperm.flatMap_right _).mem_iff
  · rw [stats_runIn hnodup, stats_runIn (hperm.nodup_iff.mp hnodup), hvisits]
    exact hperm.map _

def makesVisits : Phase → Bool
  | .routes | .controllers | .templates => true
  | .assets | .enumeration => false

theorem flatMap_visitsIn_filter (p : Project) (phases : List Phase) :
    (phases.filter makesVisits).flatMap (visitsIn p) = phases.flatMap (visitsIn p) := by
  induction phases with
  | nil => rfl
  | cons phase phases ih => cases phase <;> simp [List.filter_cons, makesVisits, visitsIn, ih]

theorem flatMap_visitsIn_of_sublist (hperm : order.Perm Phase.all)
    (hsub : [.routes, .controllers, .templates].Sublist order) :
    order.flatMap (visitsIn p) = visits p := by
  have hthree : Phase.all.filter makesVisits = order.filter makesVisits :=
    (hsub.filter makesVisits).eq_of_length (hperm.symm.filter makesVisits).length_eq
  rw [visits_eq_flatMap, ← flatMap_visitsIn_filter p order, ← hthree, flatMap_visitsIn_filter]

/-- The public entries may be marked and the candidates listed at any point of a run: either phase
may change places with any other, and every order of the phases that keeps the three that visit files
in theirs leaves the same graph and makes each phase count the same. -/
theorem run_in_any_order (s : Survey) (g : UsageGraph) :
    (∀ phase ∈ [Phase.assets, .enumeration], ∀ other ≠ phase,
      (s.runIn [phase, other] g).graph = (s.runIn [other, phase] g).graph ∧
        (s.runIn [phase, other] g).stats.Perm (s.runIn [other, phase] g).stats) ∧
    ∀ order : List Phase, order.Perm Phase.all →
      [.routes, .controllers, .templates].Sublist order →
        (s.runIn order g).graph = (s.run g).graph ∧
          (s.runIn order g).stats.map (·.phase) = order ∧
            (s.runIn order g).stats.Perm (s.run g).stats := by
  constructor
  · intro phase hphase other hne
    refine runIn_of_perm (.swap _ _ _) (by simp [hne.symm]) ?_
    have hnone : visitsIn s.project phase = [] := by
      simp only [List.mem_cons, List.not_mem_nil, or_false] at hphase
      rcases hphase with rfl | rfl <;> rfl
    simp [hnone]
  · intro order hperm hsub
    have hnodup : order.Nodup := hperm.nodup_iff.mpr (by decide)
    obtain ⟨hgraph, hstats⟩ := runIn_of_perm (s := s) (g := g) hperm hnodup (by
      rw [flatMap_visitsIn_of_sublist hperm hsub, visits_eq_flatMap])
    refine ⟨hgraph, ?_, hstats⟩
    rw [stats_runIn hnodup, List.map_map]
    exact List.map_id _

/-- A project with a public entry, and a route that shows a view. -/
def portal : Project where
  tree := .ofEntries
    [(["public"], .folder), (["public", "index.php"], .file [] false),
      (["resources"], .folder), (["resources", "views"], .folder),
      (["resources", "views", "home.blade.php"], .file [] false),
      (["routes"], .folder), (["routes", "web.php"], .file (encode "view('home')") false)]
    (of_decide_eq_true (by rfl))
  cwd := []
  root := "/"

theorem run_in_any_order_portal :
    Phase.assets ∈ [Phase.assets, .enumeration] ∧ Phase.templates ≠ Phase.assets ∧
      (runIn ⟨portal, []⟩ [.assets, .templates] ∅).graph =
        (runIn ⟨portal, []⟩ [.templates, .assets] ∅).graph ∧
      (runIn ⟨portal, []⟩ [.assets, .templates] ∅).stats.Perm
        (runIn ⟨portal, []⟩ [.templates, .assets] ∅).stats ∧
      [Phase.enumeration, .routes, .assets, .controllers, .templates].Perm Phase.all ∧
      [Phase.routes, .controllers, .templates].Sublist
        [.enumeration, .routes, .assets, .controllers, .templates] ∧
      (runIn ⟨portal, []⟩ [.enumeration, .routes, .assets, .controllers, .templates] ∅).graph =
        (run ⟨portal, []⟩ ∅).graph ∧
      (runIn ⟨portal, []⟩ [.enumeration, .routes, .assets, .controllers, .templates] ∅).stats.Perm
        (run ⟨portal, []⟩ ∅).stats := by
  have hmem : Phase.assets ∈ [Phase.assets, .enumeration] := by decide
  have hne : Phase.templates ≠ Phase.assets := by decide
  have hperm : [Phase.enumeration, .routes, .assets, .controllers, .templates].Perm Phase.all := by
    decide
  have hsub : [Phase.routes, .controllers, .templates].Sublist
      [.enumeration, .routes, .assets, .controllers, .templates] := by decide
  obtain ⟨hpair, horder⟩ := run_in_any_order ⟨portal, []⟩ ∅
  obtain ⟨hgraph, hstats⟩ := hpair _ hmem _ hne
  obtain ⟨hgraph', -, hstats'⟩ := horder _ hperm hsub
  exact ⟨hmem, hne, hgraph, hstats, hperm, hsub, hgraph', hstats'⟩

end UnusedAssets.Survey
