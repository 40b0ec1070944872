import UnusedAssets.Proofs.Survey.RouteLinks

/-!
# Runs after runs

A run visits every file once, so it may end with references to files that it has passed over. A
further run on the same graph follows these. No run marks less than the one before
(`markedVisits_sublist_of_le`), and one that marks no more changes nothing (`run_run_of_marked`).
So every run but the first that changes the graph marks one more controller or view, and after one
run more than there are controllers and views the graph is settled (`run_settled`): nothing in it is
left to follow.
-/

namespace UnusedAssets.Survey

open Text FileTree

variable {p : Project} {s : Survey} {g g' : UsageGraph} {v : Visit} {vs : List Visit}
  {kind : SourceKind}

theorem le_afterVisits (p : Project) (g : UsageGraph) (vs : List Visit) :
    g ≤ afterVisits p g vs := by
  induction vs generalizing g with
  | nil => exact le_refl g
  | cons v vs ih => exact (le_afterVisit p g v).trans (ih (afterVisit p g v))

theorem afterVisits_le_run (s : Survey) (g : UsageGraph) :
    afterVisits s.project g (visits s.project) ≤ (s.run g).graph := by
  constructor
  · intro x hx
    rw [candidates_afterVisits] at hx
    rw [mem_candidates_run]
    exact .inr hx
  · intro x hx
    rw [mem_used_run]
    exact .inr hx
  · rw [edges_run]
    exact fun _ he => he
  · rw [unresolved_run]
    exact fun _ hx => hx

theorem le_run (s : Survey) (g : UsageGraph) : g ≤ (s.run g).graph :=
  (le_afterVisits s.project g (visits s.project)).trans (afterVisits_le_run s g)

/-- From a graph that holds more no fewer files are marked. -/
theorem markedVisits_sublist_of_le (hg : g ≤ g') :
    (markedVisits p g vs).Sublist (markedVisits p g' vs) := by
  induction vs generalizing g g' with
  | nil => exact .slnil
  | cons v vs ih =>
    rw [markedVisits, markedVisits]
    cases hmark : v.isMarked g with
    | true =>
      rw [if_pos rfl, if_pos (Visit.isMarked_of_le hg hmark)]
      exact (ih (afterVisit_le_afterVisit hg fun _ hr => hr)).cons_cons v
    | false =>
      rw [if_neg Bool.false_ne_true]
      split
      · exact (ih (hg.trans (le_afterVisit p g' v))).cons v
      · exact ih hg

/-- A file that the graph before some visits says is in use is marked when its turn comes. -/
theorem mem_markedVisits_of_isMarked (hv : v ∈ vs) (h : v.isMarked g = true) :
    v ∈ markedVisits p g vs := by
  obtain ⟨before, after, rfl⟩ := List.append_of_mem hv
  exact mem_markedVisits_iff.mpr
    ⟨before, after, rfl, Visit.isMarked_of_le (le_afterVisits p g before) h⟩

/-- The graph of a run says that the files which it has marked are in use. -/
theorem isMarked_run (h : v ∈ markedVisits s.project g (visits s.project)) :
    v.isMarked (s.run g).graph = true := by
  obtain ⟨before, after, hvisits, hmark⟩ := mem_markedVisits_iff.mp h
  have hrun := afterVisits_le_run s g
  rw [hvisits, afterVisits_append] at hrun
  exact Visit.isMarked_of_le ((le_afterVisits _ _ _).trans hrun) hmark

/-- A run that marks the same files as the run before adds nothing. -/
theorem run_run_of_marked (h : markedVisits s.project (s.run g).graph (visits s.project) =
    markedVisits s.project g (visits s.project)) :
    (s.run (s.run g).graph).graph = (s.run g).graph := by
  refine UsageGraph.ext_mem (fun x => ?_) (fun x => ?_) (fun e => ?_) fun x => ?_
  · simp only [mem_candidates_run]
    grind
  · rw [mem_used_run, mem_used_afterVisits, h, mem_used_run, mem_used_afterVisits]
    grind
  · rw [edges_run, mem_edges_afterVisits, h, edges_run, mem_edges_afterVisits]
    grind
  · rw [unresolved_run, mem_unresolved_afterVisits, h, unresolved_run, mem_unresolved_afterVisits]
    grind

/-- Either the graph of a run does not change any more, or the next run marks more files. -/
theorem run_run_or_marks_more (s : Survey) (g : UsageGraph) :
    (s.run (s.run g).graph).graph = (s.run g).graph ∨
      (markedVisits s.project g (visits s.project)).length <
        (markedVisits s.project (s.run g).graph (visits s.project)).length := by
  have hsub : (markedVisits s.project g (visits s.project)).Sublist
      (markedVisits s.project (s.run g).graph (visits s.project)) :=
    markedVisits_sublist_of_le (le_run s g)
  rcases Nat.eq_or_lt_of_le hsub.length_le with heq | hlt
  · exact .inl (run_run_of_marked (hsub.eq_of_length heq).symm)
  · exact .inr hlt

/-- The graph after some runs, one after the other. -/
def afterRuns (s : Survey) : Nat → UsageGraph → UsageGraph
  | 0, g => g
  | n + 1, g => (s.run (s.afterRuns n g)).graph

theorem run_le_afterRuns (s : Survey) (g : UsageGraph) (n : Nat) :
    (s.run g).graph ≤ s.afterRuns (n + 1) g := by
  induction n with
  | zero => exact le_refl _
  | succ n ih => exact ih.trans (le_run s (s.afterRuns (n + 1) g))

theorem routes_le_marked (p : Project) (g : UsageGraph) :
    (routeVisits p).length ≤ (markedVisits p g (visits p)).length := by
  have hroutes : markedVisits p g (routeVisits p) = routeVisits p := by
    rw [routeVisits_eq]
    exact markedVisits_of_routes fun _ => kind_of_mem_visitsOf
  rw [visits, List.append_assoc, markedVisits_append, hroutes, List.length_append]
  omega

/-- As long as runs change the graph, each of them marks one more file. -/
theorem settled_or_marked (s : Survey) (g : UsageGraph) (n : Nat) :
    (s.run (s.afterRuns (n + 1) g)).graph = s.afterRuns (n + 1) g ∨
      (routeVisits s.project).length + n <
        (markedVisits s.project (s.afterRuns (n + 1) g) (visits s.project)).length := by
  induction n with
  | zero =>
    -- The first run marks the route files, whatever the graph.
    simp only [Nat.add_zero, afterRuns]
    exact (run_run_or_marks_more s g).imp_right
      (Nat.lt_of_le_of_lt (routes_le_marked s.project g))
  | succ n ih =>
    rcases ih with hfixed | hmarked
    · left
      rw [afterRuns, hfixed, hfixed]
    · exact (run_run_or_marks_more s (s.afterRuns (n + 1) g)).imp_right
        (Nat.lt_of_le_of_lt hmarked)

def listedPaths (p : Project) : List Bytes :=
  p.tree.filesWithSuffix p.cwd (p.pathTo Layout.controllersDir) Layout.sourceSuffix ++
    p.tree.filesWithSuffix p.cwd (p.pathTo Layout.viewsDir) Layout.viewSuffix

/-- Each controller and each view that is listed is visited once. -/
theorem map_path_visits (p : Project) :
    (controllerVisits p ++ templateVisits p).map (·.path) = listedPaths p := by
  rw [List.map_append, controllerVisits_eq, templateVisits_eq, map_path_visitsOf, map_path_visitsOf]
  rfl

/-- The graph after one run more than there are controllers and views. -/
def settled (s : Survey) (g : UsageGraph) : UsageGraph :=
  s.afterRuns ((listedPaths s.project).length + 1) g

theorem run_settled_eq (s : Survey) (g : UsageGraph) : (s.run (s.settled g)).graph = s.settled g := by
  have hlisted : (visits s.project).length =
      (routeVisits s.project).length + (listedPaths s.project).length := by
    rw [← map_path_visits, List.length_map, visits, List.append_assoc, List.length_append]
  -- If the graph still changed, more files would be marked than are visited.
  refine (settled_or_marked s g (listedPaths s.project).length).resolve_right fun hmarked => ?_
  have hle : (markedVisits s.project (s.settled g) (visits s.project)).length ≤
      (visits s.project).length := markedVisits_sublist.length_le
  rw [settled] at hle
  omega

/-- Whatever the graph, one run more than there are controllers and views settles it. A further run
changes nothing, and every listed file that the graph says is in use is recorded as such, with all
that it refers to. -/
theorem run_settled (s : Survey) (g : UsageGraph) :
    (s.run (s.settled g)).graph = s.settled g ∧
      (controllerVisits s.project ++ templateVisits s.project).map (·.path) =
        listedPaths s.project ∧
      ∀ v ∈ controllerVisits s.project ++ templateVisits s.project,
        v.isMarked (s.settled g) = true →
          v.name ∈ (s.settled g).used ∧
            ∀ text, s.project.readSource v.path = .ok text → ∀ r ∈ extract v.kind text,
              ∀ target, r.target = .file target ∨ r.target = .route target →
                ⟨target, v.name⟩ ∈ (s.settled g).edges := by
  have hfixed := run_settled_eq s g
  refine ⟨hfixed, map_path_visits s.project, fun v hv hmark => ?_⟩
  have hmarked : v ∈ markedVisits s.project (s.settled g) (visits s.project) := by
    refine mem_markedVisits_of_isMarked ?_ hmark
    rw [visits, List.append_assoc]
    exact List.mem_append_right _ hv
  constructor
  · rw [← hfixed]
    exact name_mem_used_run hmarked
  · intro text htext r hr target htarget
    rw [← hfixed, edges_run, mem_edges_afterVisits]
    exact .inr ⟨v, hmarked, rfl, r, mem_found_iff.mpr ⟨text, htext, hr⟩, htarget⟩

theorem run_settled_site :
    ((run ⟨site (linkTo "home"), []⟩ (settled ⟨site (linkTo "home"), []⟩ ∅)).graph =
        settled ⟨site (linkTo "home"), []⟩ ∅) ∧
      toAbout ∈ controllerVisits (site (linkTo "home")) ++ templateVisits (site (linkTo "home")) ∧
      toAbout.isMarked (settled ⟨site (linkTo "home"), []⟩ ∅) = true ∧
      Reference.routePath "home" ∈ found (site (linkTo "home")) toAbout ∧
      toAbout.name ∈ (settled ⟨site (linkTo "home"), []⟩ ∅).used ∧
      ⟨"home", toAbout.name⟩ ∈ (settled ⟨site (linkTo "home"), []⟩ ∅).edges := by
  have hlisted : toAbout ∈
      controllerVisits (site (linkTo "home")) ++ templateVisits (site (linkTo "home")) := by
    refine List.mem_append_right _ ?_
    rw [templateVisits_eq, visitsOf, visitedNames_site]
    exact List.mem_map.mpr ⟨["about.blade.php"], by decide, by decide⟩
  have hfirst : toAbout.isMarked (run ⟨site (linkTo "home"), []⟩ ∅).graph = true :=
    isMarked_run (by rw [markedVisits_site.1]; decide)
  have hmark : toAbout.isMarked (settled ⟨site (linkTo "home"), []⟩ ∅) = true :=
    Visit.isMarked_of_le (run_le_afterRuns _ _ _) hfirst
  have hfound : Reference.routePath "home" ∈ found (site (linkTo "home")) toAbout := by
    rw [found_toAbout, extract_linkTo "home" (by decide)]
    exact List.mem_singleton_self _
  obtain ⟨hfixed, -, hused⟩ := run_settled ⟨site (linkTo "home"), []⟩ ∅
  obtain ⟨hname, hedges⟩ := hused toAbout hlisted hmark
  obtain ⟨text, htext, hr⟩ := mem_found_iff.mp hfound
  exact ⟨hfixed, hlisted, hmark, hfound, hname, hedges text htext _ hr "home" (.inr rfl)⟩

end UnusedAssets.Survey
