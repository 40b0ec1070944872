import UnusedAssets.Phase
import UnusedAssets.Proofs.UsageGraph.Additions

/-!
# Runs of a survey

A run is a walk over all visits in order, after which the public entries are marked and the
candidates listed. `afterVisit` is what one visit does to the graph: a file that cannot be read is
marked like one without references. `markedVisits` keeps the visits at whose turn the file is
marked, and `graph_run` says what the graph of a run is made of.
-/

namespace UnusedAssets

theorem Project.readSource_eq_ok_iff {p : Project} {path : Text.Bytes} {text : String} :
    p.readSource path = .ok text ↔ ∃ content executable,
      p.tree.entryAt p.cwd path = .ok (.file content executable) ∧
        Text.decode? content = some text := by
  rw [readSource, readText, FileTree.readText]
  cases p.tree.entryAt p.cwd path with
  | error fault => simp
  | ok e =>
    cases e with
    | file content executable => cases hd : Text.decode? content <;> simp [hd]
    | link target => simp
    | folder => simp

namespace Survey

variable {p : Project} {s : Survey} {g : UsageGraph} {v : Visit} {vs : List Visit}
  {b : Progress} {x : String}

/-- The references that a visit finds; none in a file that cannot be read. -/
def found (p : Project) (v : Visit) : List Reference :=
  match p.readSource v.path with
  | .ok text => extract v.kind text
  | .error _ => []

def afterVisit (p : Project) (g : UsageGraph) (v : Visit) : UsageGraph :=
  if v.isMarked g then (g.markUsed v.name).applyAll v.name (found p v) else g

def afterVisits (p : Project) (g : UsageGraph) (vs : List Visit) : UsageGraph :=
  vs.foldl (afterVisit p) g

/-- The visits at whose turn the file is marked, in order. -/
def markedVisits (p : Project) : UsageGraph → List Visit → List Visit
  | _, [] => []
  | g, v :: vs =>
    if v.isMarked g then v :: markedVisits p (afterVisit p g v) vs else markedVisits p g vs

def report (p : Project) (v : Visit) : Event :=
  match p.readSource v.path with
  | .ok text => analyzedEvent v.name v.kind (extract v.kind text).length
  | .error f => skippedEvent v.path f

theorem mem_found_iff {r : Reference} : r ∈ found p v ↔
    ∃ text, p.readSource v.path = .ok text ∧ r ∈ extract v.kind text := by
  unfold found
  cases p.readSource v.path <;> simp

theorem found_congr {p' : Project}
    (h : ∀ text, p'.readSource v.path = .ok text ↔ p.readSource v.path = .ok text) :
    found p' v = found p v := by
  cases hp : p.readSource v.path with
  | ok text => rw [found, found, (h text).mpr hp, hp]
  | error f =>
    cases hp' : p'.readSource v.path with
    | ok text =>
      rw [(h text).mp hp'] at hp
      exact absurd hp (by simp)
    | error f' => rw [found, found, hp, hp']

theorem graph_visit : (visit p b v).graph = afterVisit p b.graph v := by
  unfold visit afterVisit found Project.analyzeFile
  cases v.isMarked b.graph with
  | false => rfl
  | true => cases p.readSource v.path <;> rfl

theorem events_visit_of_marked (h : v.isMarked b.graph = true) :
    (visit p b v).events = b.events ++ [report p v] := by
  unfold visit report Project.analyzeFile
  rw [if_pos h]
  cases p.readSource v.path <;> rfl

theorem events_visit_of_not_marked (h : v.isMarked b.graph = false) :
    (visit p b v).events = b.events := by
  unfold visit
  rw [h]
  rfl

theorem graph_foldl_visit : (vs.foldl (visit p) b).graph = afterVisits p b.graph vs := by
  induction vs generalizing b with
  | nil => rfl
  | cons v vs ih => rw [List.foldl_cons, ih, graph_visit]; rfl

theorem events_foldl_visit :
    (vs.foldl (visit p) b).events = b.events ++ (markedVisits p b.graph vs).map (report p) := by
  induction vs generalizing b with
  | nil => simp [markedVisits]
  | cons v vs ih =>
    rw [List.foldl_cons, ih, graph_visit, markedVisits]
    cases h : v.isMarked b.graph with
    | false => simp [events_visit_of_not_marked h, afterVisit, h]
    | true => simp [events_visit_of_marked h]

@[simp] theorem afterVisits_nil : afterVisits p g [] = g := rfl

theorem afterVisits_append {ws : List Visit} :
    afterVisits p g (vs ++ ws) = afterVisits p (afterVisits p g vs) ws :=
  List.foldl_append

theorem markedVisits_append {ws : List Visit} : markedVisits p g (vs ++ ws) =
    markedVisits p g vs ++ markedVisits p (afterVisits p g vs) ws := by
  induction vs generalizing g with
  | nil => rfl
  | cons v vs ih =>
    rw [List.cons_append, markedVisits, markedVisits, afterVisits, List.foldl_cons]
    cases h : v.isMarked g with
    | false => simp [ih, afterVisit, afterVisits, h]
    | true => simp [ih, afterVisits]

theorem markedVisits_of_routes (h : ∀ v ∈ vs, v.kind = .route) : markedVisits p g vs = vs := by
  induction vs generalizing g with
  | nil => rfl
  | cons v vs ih =>
    have hv : v.isMarked g = true := by simp [Visit.isMarked, h v List.mem_cons_self]
    rw [markedVisits, if_pos hv, ih fun w hw => h w (List.mem_cons_of_mem _ hw)]

theorem markedVisits_sublist : (markedVisits p g vs).Sublist vs := by
  induction vs generalizing g with
  | nil => exact .slnil
  | cons v vs ih =>
    rw [markedVisits]
    split
    · exact ih.cons_cons v
    · exact ih.cons v

/-- A visit marks its file if the graph that the visits before it left says that it is in use. -/
theorem mem_markedVisits_iff : v ∈ markedVisits p g vs ↔
    ∃ before after, vs = before ++ v :: after ∧ v.isMarked (afterVisits p g before) = true := by
  induction vs generalizing g with
  | nil => simp [markedVisits]
  | cons w vs ih =>
    have hstep : v ∈ markedVisits p g (w :: vs) ↔
        (v = w ∧ w.isMarked g = true) ∨ v ∈ markedVisits p (afterVisit p g w) vs := by
      rw [markedVisits]
      cases h : w.isMarked g with
      | false => simp [afterVisit, h]
      | true => simp
    rw [hstep, ih]
    constructor
    · intro hmarked
      rcases hmarked with ⟨rfl, h⟩ | ⟨before, after, rfl, h⟩
      · exact ⟨[], vs, rfl, h⟩
      · exact ⟨w :: before, after, rfl, h⟩
    · intro hturn
      obtain ⟨before, after, he, h⟩ := hturn
      cases before with
      | nil =>
        obtain ⟨rfl, rfl⟩ := List.cons.inj he
        exact .inl ⟨rfl, h⟩
      | cons b before =>
        obtain ⟨rfl, rfl⟩ := List.cons.inj he
        exact .inr ⟨before, after, rfl, h⟩

/-- Visits that would not mark their file may be left out, and the others may be made to any project
in which they find the same. -/
theorem afterVisits_filter {p' : Project} {keep : Visit → Bool}
    (h : ∀ v ∈ markedVisits p g vs, keep v = true ∧ found p' v = found p v) :
    afterVisits p' g (vs.filter keep) = afterVisits p g vs := by
  induction vs generalizing g with
  | nil => rfl
  | cons v vs ih =>
    rw [markedVisits] at h
    cases hmark : v.isMarked g with
    | false =>
      -- Made or left out, the visit does not change the graph.
      rw [hmark, if_neg Bool.false_ne_true] at h
      have hskip (q : Project) : afterVisit q g v = g := by simp [afterVisit, hmark]
      have hall : afterVisits p g (v :: vs) = afterVisits p g vs := by
        rw [afterVisits, List.foldl_cons, hskip, ← afterVisits]
      rw [hall, ← ih h]
      cases hkeep : keep v with
      | false => rw [List.filter_cons_of_neg (by simp [hkeep])]
      | true =>
        rw [List.filter_cons_of_pos hkeep, afterVisits, List.foldl_cons, hskip, ← afterVisits]
    | true =>
      rw [hmark, if_pos rfl] at h
      obtain ⟨hkeep, hfound⟩ := h v List.mem_cons_self
      have hsame : afterVisit p' g v = afterVisit p g v := by rw [afterVisit, afterVisit, hfound]
      rw [List.filter_cons_of_pos hkeep, afterVisits, List.foldl_cons, hsame, ← afterVisits,
        ih fun w hw => h w (List.mem_cons_of_mem _ hw)]
      rfl

theorem candidates_afterVisits : (afterVisits p g vs).candidates = g.candidates := by
  induction vs generalizing g with
  | nil => rfl
  | cons v vs ih =>
    rw [afterVisits, List.foldl_cons]
    refine ih.trans ?_
    unfold afterVisit
    split <;> simp

/-- After some visits in use: what was, the files marked, and the files that they refer to. -/
theorem mem_used_afterVisits : x ∈ (afterVisits p g vs).used ↔ x ∈ g.used ∨
    ∃ v ∈ markedVisits p g vs, x = v.name ∨ ∃ r ∈ found p v, r.target = .file x := by
  induction vs generalizing g with
  | nil => simp [afterVisits, markedVisits]
  | cons v vs ih =>
    rw [afterVisits, List.foldl_cons, markedVisits]
    refine ih.trans ?_
    cases h : v.isMarked g with
    | false => simp [afterVisit, h]
    | true =>
      simp only [afterVisit, h, ↓reduceIte, UsageGraph.mem_used_applyAll,
        UsageGraph.mem_used_markUsed, List.mem_cons, exists_eq_or_imp]
      grind

theorem mem_edges_afterVisits {e : Edge} : e ∈ (afterVisits p g vs).edges ↔ e ∈ g.edges ∨
    ∃ v ∈ markedVisits p g vs, v.name = e.source ∧
      ∃ r ∈ found p v, r.target = .file e.target ∨ r.target = .route e.target := by
  induction vs generalizing g with
  | nil => simp [afterVisits, markedVisits]
  | cons v vs ih =>
    rw [afterVisits, List.foldl_cons, markedVisits]
    refine ih.trans ?_
    cases h : v.isMarked g with
    | false => simp [afterVisit, h]
    | true =>
      simp only [afterVisit, h, ↓reduceIte, UsageGraph.mem_edges_applyAll,
        UsageGraph.edges_markUsed, List.mem_cons, exists_eq_or_imp]
      grind

theorem mem_unresolved_afterVisits : x ∈ (afterVisits p g vs).unresolved ↔
    x ∈ g.unresolved ∨
      ∃ v ∈ markedVisits p g vs, ∃ r ∈ found p v, r.target = .unresolved x := by
  induction vs generalizing g with
  | nil => simp [afterVisits, markedVisits]
  | cons v vs ih =>
    rw [afterVisits, List.foldl_cons, markedVisits]
    refine ih.trans ?_
    cases h : v.isMarked g with
    | false => simp [afterVisit, h]
    | true =>
      simp only [afterVisit, h, ↓reduceIte, UsageGraph.mem_unresolved_applyAll,
        UsageGraph.unresolved_markUsed, List.mem_cons, exists_eq_or_imp]
      grind

/-- All visits of a run, in order. -/
def visits (p : Project) : List Visit := routeVisits p ++ controllerVisits p ++ templateVisits p

/-- The public entry files that are there, as project paths. -/
def entryPaths (p : Project) : List String :=
  (entryFiles.filter fun name : String =>
    p.tree.pathExists p.cwd (Path.join (p.pathTo Layout.publicDir) name)).map
      fun name => Layout.publicDir ++ "/" ++ name

theorem mem_entryPaths_iff : x ∈ entryPaths p ↔ ∃ name ∈ entryFiles,
    p.tree.pathExists p.cwd (Path.join (p.pathTo Layout.publicDir) name) = true ∧
      x = Layout.publicDir ++ "/" ++ name := by
  simp only [entryPaths, List.mem_map, List.mem_filter, and_assoc, eq_comm]

def withUsed (g : UsageGraph) (paths : List String) : UsageGraph :=
  paths.foldl (fun g path => g.markUsed path) g

def withCandidates (g : UsageGraph) (paths : List String) : UsageGraph :=
  paths.foldl (fun g path => g.addCandidate path) g

theorem graph_foldl_markEntry {names : List String} :
    (names.foldl (markEntry p) b).graph = withUsed b.graph ((names.filter fun name : String =>
      p.tree.pathExists p.cwd (Path.join (p.pathTo Layout.publicDir) name)).map
        fun name => Layout.publicDir ++ "/" ++ name) := by
  induction names generalizing b with
  | nil => rfl
  | cons name names ih =>
    rw [List.foldl_cons, ih]
    cases h : p.tree.pathExists p.cwd (Path.join (p.pathTo Layout.publicDir) name) with
    | false => simp [markEntry, h]
    | true => simp [markEntry, h, withUsed]

theorem graph_foldl_addCandidate {paths : List String} :
    (paths.foldl addCandidate b).graph = withCandidates b.graph paths := by
  induction paths generalizing b with
  | nil => rfl
  | cons path paths ih => rw [List.foldl_cons, ih]; rfl

theorem graph_run (s : Survey) (g : UsageGraph) : (s.run g).graph =
    withCandidates (withUsed (afterVisits s.project g (visits s.project))
      (entryPaths s.project)) (s.project.candidates s.excludes) := by
  simp only [run, Phase.all, List.foldl_cons, List.foldl_nil, Findings.andRun, runPhase, work,
    visitAll, graph_foldl_visit, graph_foldl_markEntry, graph_foldl_addCandidate, visits,
    afterVisits_append, entryPaths]

theorem mem_used_withUsed {paths : List String} :
    x ∈ (withUsed g paths).used ↔ x ∈ paths ∨ x ∈ g.used := by
  induction paths generalizing g with
  | nil => simp [withUsed]
  | cons path paths ih =>
    rw [withUsed, List.foldl_cons]
    refine ih.trans ?_
    rw [UsageGraph.mem_used_markUsed, List.mem_cons, or_left_comm, or_assoc]

theorem withUsed_others {paths : List String} :
    (withUsed g paths).candidates = g.candidates ∧ (withUsed g paths).edges = g.edges ∧
      (withUsed g paths).unresolved = g.unresolved := by
  induction paths generalizing g with
  | nil => exact ⟨rfl, rfl, rfl⟩
  | cons path paths ih => exact ih

theorem mem_candidates_withCandidates {paths : List String} :
    x ∈ (withCandidates g paths).candidates ↔ x ∈ paths ∨ x ∈ g.candidates := by
  induction paths generalizing g with
  | nil => simp [withCandidates]
  | cons path paths ih =>
    rw [withCandidates, List.foldl_cons]
    refine ih.trans ?_
    rw [UsageGraph.mem_candidates_addCandidate, List.mem_cons, or_left_comm, or_assoc]

theorem withCandidates_others {paths : List String} :
    (withCandidates g paths).used = g.used ∧ (withCandidates g paths).edges = g.edges ∧
      (withCandidates g paths).unresolved = g.unresolved := by
  induction paths generalizing g with
  | nil => exact ⟨rfl, rfl, rfl⟩
  | cons path paths ih => exact ih

section Fields

variable {paths : List String}

@[simp] theorem withUsed_nil : withUsed g [] = g := rfl

@[simp] theorem candidates_withUsed : (withUsed g paths).candidates = g.candidates :=
  withUsed_others.1

@[simp] theorem edges_withUsed : (withUsed g paths).edges = g.edges := withUsed_others.2.1

@[simp] theorem unresolved_withUsed : (withUsed g paths).unresolved = g.unresolved :=
  withUsed_others.2.2

@[simp] theorem withCandidates_nil : withCandidates g [] = g := rfl

@[simp] theorem used_withCandidates : (withCandidates g paths).used = g.used :=
  withCandidates_others.1

@[simp] theorem edges_withCandidates : (withCandidates g paths).edges = g.edges :=
  withCandidates_others.2.1

@[simp] theorem unresolved_withCandidates :
    (withCandidates g paths).unresolved = g.unresolved :=
  withCandidates_others.2.2

end Fields

theorem mem_used_run : x ∈ (s.run g).graph.used ↔
    x ∈ entryPaths s.project ∨ x ∈ (afterVisits s.project g (visits s.project)).used := by
  rw [graph_run, withCandidates_others.1, mem_used_withUsed]

theorem name_mem_used_run (h : v ∈ markedVisits s.project g (visits s.project)) :
    v.name ∈ (s.run g).graph.used :=
  mem_used_run.mpr (.inr (mem_used_afterVisits.mpr (.inr ⟨v, h, .inl rfl⟩)))

theorem edges_run :
    (s.run g).graph.edges = (afterVisits s.project g (visits s.project)).edges := by
  rw [graph_run, withCandidates_others.2.1, withUsed_others.2.1]

theorem unresolved_run :
    (s.run g).graph.unresolved = (afterVisits s.project g (visits s.project)).unresolved := by
  rw [graph_run, withCandidates_others.2.2, withUsed_others.2.2]

theorem mem_candidates_run : x ∈ (s.run g).graph.candidates ↔
    x ∈ s.project.candidates s.excludes ∨ x ∈ g.candidates := by
  rw [graph_run, mem_candidates_withCandidates, withUsed_others.1, candidates_afterVisits]

end Survey

end UnusedAssets
