import UnusedAssets.Proofs.Candidate.Pruning
import UnusedAssets.Proofs.Survey.Visits

/-!
# Where a graph comes from

The graph of a run from nothing holds what the files that were searched account for, and nothing
else (`run_provenance`).
-/

namespace UnusedAssets.Survey

/-- The visits of a run that mark their file and search it, in order. -/
def searched (p : Project) : List Visit :=
  (markedVisits p ∅ (visits p)).filter fun v => (p.readSource v.path).isOk

/-- Whether an event tells of a marked file, that it was searched or that it could not be read. -/
def tellsOfVisit (e : Event) : Bool :=
  e.message ∈ [some "analyzed", some "failed to analyze file, skipping",
    some "unexpected analysis failure, skipping"]

variable {p : Project} {s : Survey} {g : UsageGraph} {v : Visit} {vs : List Visit} {x : String}

theorem mem_searched_iff : v ∈ searched p ↔
    v ∈ markedVisits p ∅ (visits p) ∧ ∃ text, p.readSource v.path = .ok text := by
  rw [searched, List.mem_filter]
  cases p.readSource v.path <;> simp [Except.isOk, Except.toBool]

/-- Of the marked visits only those that search their file find anything. -/
theorem exists_found_iff (q : Visit → Reference → Prop) :
    (∃ v ∈ markedVisits p ∅ (visits p), ∃ r ∈ found p v, q v r) ↔
      ∃ v ∈ searched p, ∃ text, p.readSource v.path = .ok text ∧
        ∃ r ∈ extract v.kind text, q v r := by
  constructor
  · intro h
    obtain ⟨v, hv, r, hr, hq⟩ := h
    obtain ⟨text, htext, hr⟩ := mem_found_iff.mp hr
    exact ⟨v, mem_searched_iff.mpr ⟨hv, text, htext⟩, text, htext, r, hr, hq⟩
  · intro h
    obtain ⟨v, hv, text, htext, r, hr, hq⟩ := h
    exact ⟨v, (mem_searched_iff.mp hv).1, r, mem_found_iff.mpr ⟨text, htext, hr⟩, hq⟩

theorem mem_visits_of_marked (h : v ∈ markedVisits p g (visits p)) : v ∈ visits p :=
  markedVisits_sublist.subset h

theorem mem_markedVisits_of_route (hv : v ∈ vs) (hk : v.kind = .route) :
    v ∈ markedVisits p g vs := by
  obtain ⟨before, after, rfl⟩ := List.append_of_mem hv
  exact mem_markedVisits_iff.mpr ⟨before, after, rfl, by simp [Visit.isMarked, hk]⟩

theorem exists_marked_iff : (∃ v ∈ markedVisits p ∅ (visits p), x = v.name) ↔
    (∃ v ∈ routeVisits p, x = v.name) ∨
      (∃ v ∈ controllerVisits p, v ∈ markedVisits p ∅ (visits p) ∧ x = v.name) ∨
        ∃ v ∈ templateVisits p, v ∈ markedVisits p ∅ (visits p) ∧ x = v.name := by
  constructor
  · intro h
    obtain ⟨v, hv, hx⟩ := h
    have hall := mem_visits_of_marked hv
    rw [visits, List.mem_append, List.mem_append] at hall
    rcases hall with (hr | hc) | ht
    · exact .inl ⟨v, hr, hx⟩
    · exact .inr (.inl ⟨v, hc, hv, hx⟩)
    · exact .inr (.inr ⟨v, ht, hv, hx⟩)
  · intro h
    rcases h with ⟨v, hv, hx⟩ | ⟨v, -, hv, hx⟩ | ⟨v, -, hv, hx⟩
    · have hall : v ∈ visits p := by
        rw [visits, List.append_assoc]
        exact List.mem_append_left _ hv
      rw [routeVisits_eq] at hv
      exact ⟨v, mem_markedVisits_of_route hall (kind_of_mem_visitsOf hv), hx⟩
    · exact ⟨v, hv, hx⟩
    · exact ⟨v, hv, hx⟩

section Events

theorem events_foldl_markEntry {names : List String} {b : Progress} :
    (names.foldl (markEntry p) b).events = b.events := by
  induction names generalizing b with
  | nil => rfl
  | cons name names ih =>
    rw [List.foldl_cons, ih]
    unfold markEntry
    split <;> rfl

theorem events_foldl_addCandidate {paths : List String} {b : Progress} :
    (paths.foldl addCandidate b).events = b.events := by
  induction paths generalizing b with
  | nil => rfl
  | cons path paths ih => rw [List.foldl_cons, ih]; rfl

theorem filter_listingEvents (dir : Text.Bytes) :
    (listingEvents p dir).filter tellsOfVisit = [] := by
  simp [listingEvents, tellsOfVisit]

theorem filter_candidateEvents (excludes : List String) :
    (candidateEvents p excludes).filter tellsOfVisit = [] := by
  simp [candidateEvents, tellsOfVisit]

theorem filter_phaseEvent (stats : PhaseStats) :
    [phaseEvent stats g].filter tellsOfVisit = [] := rfl

theorem tellsOfVisit_report : tellsOfVisit (report p v) = true := by
  unfold report
  cases p.readSource v.path with
  | ok text => rfl
  | error f =>
    unfold skippedEvent
    dsimp only
    split <;> rfl

theorem filter_events_run (s : Survey) (g : UsageGraph) :
    (s.run g).events.filter tellsOfVisit =
      (markedVisits s.project g (visits s.project)).map (report s.project) := by
  have hreports (vs : List Visit) : (vs.map (report s.project)).filter tellsOfVisit =
      vs.map (report s.project) := by
    refine List.filter_eq_self.mpr fun e he => ?_
    obtain ⟨v, -, rfl⟩ := List.mem_map.mp he
    exact tellsOfVisit_report
  simp only [run, Phase.all, List.foldl_cons, List.foldl_nil, Findings.andRun, runPhase, work,
    visitAll, events_foldl_visit, graph_foldl_visit, events_foldl_markEntry,
    events_foldl_addCandidate, visits, markedVisits_append, afterVisits_append, List.map_append,
    List.filter_append, filter_listingEvents, filter_candidateEvents, filter_phaseEvent,
    List.nil_append, List.append_nil, hreports]

end Events

/-- The graph of a run from nothing, traced back to the files that were searched. The events tell of
the marked files in order, those that were searched among them, each by its name in the project. No
file is searched twice, and a name stands for two of them only if it was read with replacements. -/
theorem run_provenance (s : Survey) :
    (s.run ∅).events.filter tellsOfVisit =
      (markedVisits s.project ∅ (visits s.project)).map (report s.project) ∧
    (∀ v ∈ searched s.project, s.project.nameOf? v.path = some v.name) ∧
    ((searched s.project).map (·.path)).Nodup ∧
    (∀ v ∈ searched s.project, ∀ v' ∈ searched s.project, v.name = v'.name →
      Text.replacement ∉ v.name.toList → v = v') ∧
    (∀ target source, ⟨target, source⟩ ∈ (s.run ∅).graph.edges ↔
      ∃ v ∈ searched s.project, v.name = source ∧
        ∃ text, s.project.readSource v.path = .ok text ∧
          ∃ r ∈ extract v.kind text, r.target = .file target ∨ r.target = .route target) ∧
    (∀ path, path ∈ (s.run ∅).graph.used ↔
      (∃ v ∈ routeVisits s.project, path = v.name) ∨
      (∃ v ∈ controllerVisits s.project,
        v ∈ markedVisits s.project ∅ (visits s.project) ∧ path = v.name) ∨
      (∃ v ∈ templateVisits s.project,
        v ∈ markedVisits s.project ∅ (visits s.project) ∧ path = v.name) ∨
      (∃ name ∈ entryFiles, s.project.tree.pathExists s.project.cwd
        (Path.join (s.project.pathTo Layout.publicDir) name) = true ∧
          path = Layout.publicDir ++ "/" ++ name) ∨
      ∃ v ∈ searched s.project, ∃ text, s.project.readSource v.path = .ok text ∧
        ∃ r ∈ extract v.kind text, r.target = .file path) ∧
    (∀ name, name ∈ (s.run ∅).graph.unresolved ↔
      ∃ v ∈ searched s.project, ∃ text, s.project.readSource v.path = .ok text ∧
        ∃ r ∈ extract v.kind text, r.target = .unresolved name) ∧
    ∀ e ∈ (s.run ∅).graph.edges, e.source ∈ (s.run ∅).graph.used := by
  have hused (path : String) : path ∈ (s.run ∅).graph.used ↔ path ∈ entryPaths s.project ∨
      (∃ v ∈ markedVisits s.project ∅ (visits s.project), path = v.name) ∨
        ∃ v ∈ markedVisits s.project ∅ (visits s.project),
          ∃ r ∈ found s.project v, r.target = .file path := by
    rw [mem_used_run, mem_used_afterVisits, or_iff_right UsageGraph.not_mem_used_empty]
    simp only [and_or_left, exists_or]
  have hedges (e : Edge) : e ∈ (s.run ∅).graph.edges ↔
      ∃ v ∈ markedVisits s.project ∅ (visits s.project), v.name = e.source ∧
        ∃ r ∈ found s.project v, r.target = .file e.target ∨ r.target = .route e.target := by
    rw [edges_run, mem_edges_afterVisits, or_iff_right UsageGraph.not_mem_edges_empty]
  have hsub : (searched s.project).Sublist (visits s.project) :=
    List.filter_sublist.trans markedVisits_sublist
  refine ⟨?_, ?_, ?_, ?_, ?_, ?_, ?_, ?_⟩
  · exact filter_events_run s ∅
  · exact fun v hv => nameOf?_of_mem_visits (hsub.subset hv)
  · exact (nodup_paths_visits s.project).sublist (hsub.map _)
  · exact fun v hv v' hv' => eq_of_name_eq (hsub.subset hv) (hsub.subset hv')
  · intro target source
    have hfound := exists_found_iff (p := s.project) fun v r =>
      v.name = source ∧ (r.target = .file target ∨ r.target = .route target)
    rw [hedges]
    grind
  · intro path
    rw [hused, mem_entryPaths_iff, exists_marked_iff,
      exists_found_iff fun _ r => r.target = .file path]
    grind
  · intro name
    rw [unresolved_run, mem_unresolved_afterVisits,
      or_iff_right UsageGraph.not_mem_unresolved_empty]
    exact exists_found_iff fun _ r => r.target = .unresolved name
  · intro e he
    obtain ⟨v, hv, hname, -⟩ := (hedges e).mp he
    rw [← hname]
    exact name_mem_used_run hv

section Limits

open Text FileTree Project

theorem visits_farAway : visits farAway = [] := by
  refine visits_eq_nil fun kind l hl => ?_
  have hlong : pathLimit < (pathBelow farAway.root (folderNames kind)).length :=
    pathLimit_lt_farAway folderNames_ne_nil isName_of_folderNames
  have hshort := length_le_of_resolve hl
  omega

theorem entryPaths_farAway : entryPaths farAway = [] := by
  refine List.eq_nil_iff_forall_not_mem.mpr fun path hpath => ?_
  obtain ⟨name, hname, hexists, -⟩ := mem_entryPaths_iff.mp hpath
  have hnames : ∀ n ∈ [encode Layout.publicDir, encode name], IsName n := by
    have hall : ∀ name ∈ entryFiles, ∀ n ∈ [encode Layout.publicDir, encode name], IsName n := by
      decide
    exact hall name hname
  obtain ⟨e, hentry⟩ := pathExists_iff.mp hexists
  obtain ⟨l, hl, -⟩ := entryAt_eq_ok_iff.mp hentry
  have hlong := pathLimit_lt_farAway (by simp) hnames
  have hshort : (pathBelow farAway.root [encode Layout.publicDir, encode name]).length ≤ pathLimit :=
    length_le_of_resolve hl
  omega

/-- Nothing is in use where all paths are too long. -/
theorem not_mem_used_farAway (excludes : List String) (path : String) :
    path ∉ (run ⟨farAway, excludes⟩ ∅).graph.used := by
  rw [mem_used_run, entryPaths_farAway, visits_farAway]
  rintro (hentry | hused)
  · exact absurd hentry List.not_mem_nil
  · exact UsageGraph.not_mem_used_empty hused

def toTwin (b : UInt8) : Visit := visitTo twins .route [twinName b]

theorem visitsOf_twins : visitsOf twins .route = [toTwin 0xFE, toTwin 0xFF] := by
  have hbelow : twins.tree.below ([] ++ folderNames .route) =
      [([twinName 0xFE], .file [] false), ([twinName 0xFF], .file [] false)] := by decide
  have hfolder : twins.tree.lookup? ([] ++ folderNames .route) = some .folder := by decide
  have hroot : twins.tree.resolve twins.cwd twins.root = .ok [] := resolve_top _ _
  have hpath : pathFault? (pathBelow twins.root (folderNames .route)) = none := by decide
  rw [visitsOf, visitedNames_of_linkFree linkFree_twins hroot hpath hfolder, hbelow]
  decide

theorem toTwin_mem_searched {b : UInt8} (h : b = 0xFE ∨ b = 0xFF) : toTwin b ∈ searched twins := by
  have hvisit : toTwin b ∈ visits twins := by
    refine mem_visits_iff.mpr ⟨.route, ?_⟩
    rw [visitsOf_twins]
    rcases h with rfl | rfl <;> simp
  have hnames : ∀ n ∈ folderNames .route ++ [twinName b], IsName n := by
    rcases h with rfl | rfl <;> decide
  have hentry : twins.tree.entryAt twins.cwd (toTwin b).path = .ok (.file [] false) := by
    refine (linkFree_twins.entryAt_pathBelow_iff (resolve_top _ _) hnames).mpr ?_
    rcases h with rfl | rfl <;> decide
  exact mem_searched_iff.mpr ⟨mem_markedVisits_of_route hvisit rfl, "",
    readSource_eq_ok_iff.mpr ⟨[], false, hentry, decode?_encode ""⟩⟩

/-- Two files whose names are read alike are searched under one name, and an entry file whose path is
too long is not in use. -/
theorem names_searched_and_entries_used :
    (twins.tree.lookup? [encode "routes", twinName 0xFE] = some (.file [] false) ∧
      twins.tree.lookup? [encode "routes", twinName 0xFF] = some (.file [] false) ∧
      ¬ ((searched twins).map (·.name)).Nodup) ∧
    farAway.tree.resolve farAway.cwd farAway.root = .ok [] ∧
      farAway.tree.lookup? ["public", "index.php"] = some (.file [] false) ∧
      "public/index.php" ∉ (run ⟨farAway, []⟩ ∅).graph.used := by
  refine ⟨⟨by decide, by decide, fun hnodup => ?_⟩, resolve_farAway,
    by decide, not_mem_used_farAway [] _⟩
  have hname : (toTwin 0xFE).name = (toTwin 0xFF).name := by decide
  have hsame : toTwin 0xFE = toTwin 0xFF := List.inj_on_of_nodup_map hnodup
    (toTwin_mem_searched (.inl rfl)) (toTwin_mem_searched (.inr rfl)) hname
  exact absurd hsame (by decide)

end Limits

end UnusedAssets.Survey
