import UnusedAssets.Proofs.FileTree.Contents
import UnusedAssets.Proofs.Survey.Provenance
import UnusedAssets.Proofs.Survey.RouteLinks

/-!
# Files that hold no text

The search of a file is all or nothing: it reads the whole file before it adds anything to the graph
(`run_searching`). So a marked file whose bytes spell no text stays marked and refers to nothing,
which is what becomes of an empty file; only the counters tell the two apart (`run_legible`).
-/

namespace UnusedAssets

open Text FileTree

/-- A content that spells a text: the same one, or none if it spells no text. -/
def Text.legible (content : Bytes) : Bytes :=
  if (decode? content).isSome then content else []

theorem Text.decode?_legible (content : Bytes) :
    decode? (legible content) = some ((decode? content).getD "") := by
  rw [legible]
  cases htext : decode? content with
  | none => exact decode?_encode ""
  | some text => simpa using htext

namespace Project

variable {p : Project} {path : Bytes} {source : String} {kind : SourceKind} {g : UsageGraph}
  {f : Failure}

/-- The project with all files empty that hold no text. -/
def legible (p : Project) : Project := p.inTree (p.tree.mapContents Text.legible)

/-- The search of a file as a program that adds to a graph, one reference after the other. -/
def searching (p : Project) (path : Bytes) (source : String) (kind : SourceKind) :
    ExceptT Failure (StateM UsageGraph) Nat := do
  let text ← .mk (pure (p.readSource path))
  let rs := extract kind text
  for r in rs do
    modify fun g => g.apply source r
  return rs.length

theorem run_forIn_apply {α : Type} (source : String) (rs : List Reference) (g : UsageGraph)
    (rest : PUnit → ExceptT Failure (StateM UsageGraph) α) :
    (forIn rs PUnit.unit (fun r _ => do
      modify fun g => g.apply source r
      pure (ForInStep.yield PUnit.unit)) >>= rest).run g =
      (rest PUnit.unit).run (g.applyAll source rs) := by
  induction rs generalizing g with
  | nil => rfl
  | cons r rs ih =>
    rw [List.forIn_cons]
    exact ih (g.apply source r)

/-- A search that fails has not touched the graph. -/
theorem run_searching (p : Project) (path : Bytes) (source : String) (kind : SourceKind)
    (g : UsageGraph) :
    (p.searching path source kind).run g =
      match p.analyzeFile path source kind g with
      | .ok (g', n) => (.ok n, g')
      | .error f => (.error f, g) := by
  rw [searching, analyzeFile]
  cases p.readSource path with
  | error f => rfl
  | ok text => exact run_forIn_apply source (extract kind text) g _

theorem readSource_error (h : p.readSource path = .error f) :
    ∃ message, f = .io (decodeLenient path) message ∨ f = .decode (decodeLenient path) message := by
  rw [readSource] at h
  split at h
  · next fault _ =>
    rw [← Except.error.inj h, Failure.ofFault, Failure.reading]
    split
    · exact ⟨_, .inr rfl⟩
    · exact ⟨_, .inl rfl⟩
  · exact absurd h (by simp)

theorem analyzeFile_eq_error_iff :
    p.analyzeFile path source kind g = .error f ↔ p.readSource path = .error f := by
  rw [analyzeFile]
  cases p.readSource path <;> simp

end Project

namespace Survey

variable {p : Project} {g : UsageGraph} {v : Visit} {vs : List Visit} {b : Progress} {f : Failure}

def holdsNoText (p : Project) (v : Visit) : Bool :=
  match p.tree.entryAt p.cwd v.path with
  | .ok (.file content _) => (decode? content).isNone
  | _ => false

def illegibleIn (p : Project) (g : UsageGraph) (phase : Phase) : Nat :=
  (markedIn p g phase).countP (holdsNoText p)

theorem holdsNoText_of_file {content : Bytes} {executable : Bool}
    (h : p.tree.entryAt p.cwd v.path = .ok (.file content executable)) :
    holdsNoText p v = (decode? content).isNone := by
  rw [holdsNoText, h]

theorem holdsNoText_of_no_file
    (h : ∀ content executable, p.tree.entryAt p.cwd v.path ≠ .ok (.file content executable)) :
    holdsNoText p v = false := by
  unfold holdsNoText
  split
  · next hentry => exact absurd hentry (h _ _)
  · rfl

theorem files_legible_or_none (p : Project) (v : Visit) :
    (∃ content executable executable', p.tree.entryAt p.cwd v.path = .ok (.file content executable) ∧
      p.legible.tree.entryAt p.legible.cwd v.path =
        .ok (.file (Text.legible content) executable')) ∨
    (∀ content executable, p.tree.entryAt p.cwd v.path ≠ .ok (.file content executable)) ∧
      ∀ content executable,
        p.legible.tree.entryAt p.legible.cwd v.path ≠ .ok (.file content executable) := by
  have hgrows : p.tree.GrowsTo (p.tree.mapContents Text.legible)
      (fun _ content content' => content' = Text.legible content) :=
    growsTo_mapContents fun _ _ _ _ => rfl
  refine (hgrows.files_or_none (mapContents_growsTo _ _) p.cwd v.path).imp_left ?_
  rintro ⟨-, content, executable, _, executable', -, hentry, hentry', rfl⟩
  exact ⟨content, executable, executable', hentry, hentry'⟩

theorem found_legible (p : Project) (v : Visit) : found p.legible v = found p v := by
  rcases files_legible_or_none p v with ⟨content, _, _, hentry, hentry'⟩ | ⟨hnone, hnone'⟩
  · rw [found_of_file hentry, found_of_file hentry', decode?_legible]
    cases decode? content with
    | none => exact extract_empty v.kind
    | some text => rfl
  · rw [found_of_no_file hnone, found_of_no_file hnone']

theorem isReadable_legible (p : Project) (v : Visit) :
    isReadable p.legible v = (isReadable p v || holdsNoText p v) := by
  rcases files_legible_or_none p v with ⟨content, _, _, hentry, hentry'⟩ | ⟨hnone, hnone'⟩
  · rw [isReadable_of_file hentry, isReadable_of_file hentry', holdsNoText_of_file hentry,
      decode?_legible]
    cases decode? content <;> rfl
  · rw [isReadable_of_no_file hnone, isReadable_of_no_file hnone', holdsNoText_of_no_file hnone,
      Bool.false_or]

theorem isReadable_of_holdsNoText (h : holdsNoText p v = true) : isReadable p v = false := by
  rcases files_legible_or_none p v with ⟨content, _, _, hentry, -⟩ | ⟨hnone, -⟩
  · rw [holdsNoText_of_file hentry] at h
    rw [isReadable_of_file hentry]
    simpa using h
  · exact isReadable_of_no_file hnone

/-- Once legible, the files that hold no text count as searched and no longer as failed. -/
theorem countP_isReadable_legible (p : Project) (vs : List Visit) :
    vs.countP (isReadable p.legible) = vs.countP (isReadable p) + vs.countP (holdsNoText p) ∧
      (vs.countP fun v => !isReadable p v) =
        (vs.countP fun v => !isReadable p.legible v) + vs.countP (holdsNoText p) := by
  induction vs with
  | nil => exact ⟨rfl, rfl⟩
  | cons v vs ih =>
    obtain ⟨hanalyzed, hfailed⟩ := ih
    simp only [List.countP_cons, isReadable_legible, hanalyzed, hfailed]
    cases htext : holdsNoText p v with
    | true =>
      -- Such a file cannot be read, so it did not count as searched before.
      simp only [isReadable_of_holdsNoText htext]
      constructor <;> simp <;> omega
    | false => constructor <;> simp <;> omega

theorem graph_run_legible (p : Project) (excludes : List String) (g : UsageGraph) :
    (run ⟨p.legible, excludes⟩ g).graph = (run ⟨p, excludes⟩ g).graph := by
  have hpaths : p.tree.SamePaths (p.tree.mapContents Text.legible) := samePaths_mapContents _ _
  have hvisits : visitsIn p.legible = visitsIn p := funext fun _ => visitsIn_of_samePaths hpaths
  have hentries : entriesIn p.legible = entriesIn p := funext fun _ => entriesIn_of_samePaths hpaths
  have hlisted : listedIn ⟨p.legible, excludes⟩ = listedIn ⟨p, excludes⟩ :=
    funext fun _ => listedIn_of_samePaths hpaths
  have hvisit : afterVisit p.legible = afterVisit p := by
    funext g v
    rw [afterVisit, afterVisit, found_legible]
  rw [run_eq_runIn, run_eq_runIn, graph_runIn, graph_runIn, hlisted]
  simp only [afterVisits, hvisit, hvisits, hentries]

theorem stats_run_legible (p : Project) (excludes : List String) (g : UsageGraph) :
    (run ⟨p.legible, excludes⟩ g).stats = (run ⟨p, excludes⟩ g).stats.map fun c =>
      { c with
        analyzed := c.analyzed + illegibleIn p g c.phase
        failed := c.failed - illegibleIn p g c.phase } := by
  have hrefs : ∀ v ∈ visits p, SameTargets p p.legible v := by
    intro v _ r _
    rw [found_legible]
  have hstats := stats_of_sameTargets (samePaths_mapContents p.tree Text.legible) hrefs excludes g
  rw [← Project.legible] at hstats
  rw [hstats, stats_run, List.map_map]
  refine List.map_congr_left fun phase _ => ?_
  obtain ⟨hanalyzed, hfailed⟩ := countP_isReadable_legible p (markedIn p g phase)
  simp only [Function.comp_apply, counters, illegibleIn, hanalyzed, hfailed,
    Nat.add_sub_cancel_right]

theorem illegibleIn_le_failed (p : Project) (excludes : List String) (g : UsageGraph) :
    ∀ c ∈ (run ⟨p, excludes⟩ g).stats, illegibleIn p g c.phase ≤ c.failed := by
  rw [stats_run]
  refine List.forall_mem_map.mpr fun phase _ => ?_
  have hfailed := (countP_isReadable_legible p (markedIn p g phase)).2
  simp only [counters, illegibleIn, hfailed]
  exact Nat.le_add_left _ _

/-- No event of a run tells of a failure that it did not expect. -/
theorem message_of_mem_events {s : Survey} {e : Event} (h : e ∈ (s.run g).events) :
    e.message ≠ some "unexpected analysis failure, skipping" := by
  intro hmessage
  have htells : tellsOfVisit e = true := by simp [tellsOfVisit, hmessage]
  have hreport := List.mem_filter.mpr ⟨h, htells⟩
  rw [filter_events_run] at hreport
  obtain ⟨v, -, rfl⟩ := List.mem_map.mp hreport
  unfold report at hmessage
  split at hmessage
  · exact absurd hmessage (by simp [analyzedEvent])
  · next f hread =>
    obtain ⟨message, rfl | rfl⟩ := Project.readSource_error hread
    · exact absurd hmessage (by simp [skippedEvent, Failure.isRecoverable])
    · exact absurd hmessage (by simp [skippedEvent, Failure.isRecoverable])

/-- A visit whose file cannot be searched leaves the graph that it handed over. -/
theorem graph_visit_of_error (hmark : v.isMarked b.graph = true)
    (h : p.analyzeFile v.path v.name v.kind (b.graph.markUsed v.name) = .error f) :
    (visit p b v).graph = b.graph.markUsed v.name := by
  have hfound : found p v = [] := by rw [found, Project.analyzeFile_eq_error_iff.mp h]
  rw [graph_visit, afterVisit, if_pos hmark, hfound]
  rfl

/-- Files that hold no text are as good as empty: a run leaves the same graph if they are, and only
counts them as searched, phase by phase, where they counted as failed. For a search fails before it
touches the graph, and only ever because a file cannot be read or holds no text. -/
theorem run_legible (p : Project) (excludes : List String) (g : UsageGraph) :
    (run ⟨p.legible, excludes⟩ g).graph = (run ⟨p, excludes⟩ g).graph ∧
    ((run ⟨p.legible, excludes⟩ g).stats = (run ⟨p, excludes⟩ g).stats.map fun c =>
      { c with
        analyzed := c.analyzed + illegibleIn p g c.phase
        failed := c.failed - illegibleIn p g c.phase }) ∧
    (∀ c ∈ (run ⟨p, excludes⟩ g).stats, illegibleIn p g c.phase ≤ c.failed) ∧
    (∀ path source kind f, p.analyzeFile path source kind g = .error f →
      (p.searching path source kind).run g = (.error f, g) ∧
        ∃ message, f = .io (decodeLenient path) message ∨
          f = .decode (decodeLenient path) message) ∧
    (∀ b v f, v.isMarked b.graph = true →
      p.analyzeFile v.path v.name v.kind (b.graph.markUsed v.name) = .error f →
        (visit p b v).graph = b.graph.markUsed v.name) ∧
    ∀ e ∈ (run ⟨p, excludes⟩ g).events,
      e.message ≠ some "unexpected analysis failure, skipping" := by
  refine ⟨graph_run_legible p excludes g, stats_run_legible p excludes g,
    illegibleIn_le_failed p excludes g, ?_, fun _ _ _ hmark h => graph_visit_of_error hmark h,
    fun _ he => message_of_mem_events he⟩
  intro path source kind f h
  refine ⟨?_, Project.readSource_error (Project.analyzeFile_eq_error_iff.mp h)⟩
  rw [Project.run_searching, h]

section Garbled

/-- The site with the same byte, which spells no text, in every file. -/
def garbled : Project := (site "").inTree ((site "").tree.mapContents fun _ => [0xFF])

theorem decode?_garbled : decode? [0xFF] = none := by decide

theorem entryAt_garbled : ∃ executable, garbled.tree.entryAt garbled.cwd toWeb.path =
    .ok (.file [0xFF] executable) := by
  have hgrows : (site "").tree.GrowsTo ((site "").tree.mapContents fun _ => [0xFF])
      (fun _ _ content' => content' = [0xFF]) := growsTo_mapContents fun _ _ _ _ => rfl
  obtain ⟨-, _, executable, -, hentry, rfl⟩ := hgrows.entryAt_file (entryAt_toWeb "")
  exact ⟨executable, hentry⟩

theorem markedVisits_garbled : markedVisits garbled ∅ (visits garbled) = [toWeb] := by
  obtain ⟨executable, hentry⟩ := entryAt_garbled
  have hvisits : visits garbled = [toWeb, toAbout, toHome] :=
    (visits_of_samePaths (samePaths_mapContents _ _)).trans (visits_site "")
  have hfound : found garbled toWeb = [] := by
    rw [found_of_file hentry, decode?_garbled]
    rfl
  simp only [hvisits, markedVisits, afterVisit, hfound]
  decide

theorem holdsNoText_garbled : holdsNoText garbled toWeb = true := by
  obtain ⟨executable, hentry⟩ := entryAt_garbled
  rw [holdsNoText_of_file hentry, decode?_garbled]
  rfl

theorem markedIn_garbled : markedIn garbled ∅ .routes = [toWeb] := by
  rw [markedIn, markedVisits_garbled]
  decide

theorem illegibleIn_garbled : illegibleIn garbled ∅ .routes = 1 := by
  rw [illegibleIn, markedIn_garbled, List.countP_singleton, holdsNoText_garbled]
  rfl

theorem stats_garbled : (run ⟨garbled, []⟩ ∅).stats.head? =
    some { phase := .routes, visited := 1, marked := 1, analyzed := 0, failed := 1 } := by
  have hvisits : visitsOf garbled .route = [toWeb] :=
    (markedIn_routes garbled ∅).symm.trans markedIn_garbled
  rw [head?_stats_run, hvisits]
  simp [isReadable_of_holdsNoText holdsNoText_garbled]

theorem analyzeFile_garbled (g : UsageGraph) :
    garbled.analyzeFile toWeb.path toWeb.name toWeb.kind g =
      .error (.decode (decodeLenient toWeb.path) "stream did not contain valid UTF-8") := by
  obtain ⟨executable, hentry⟩ := entryAt_garbled
  rw [Project.analyzeFile_eq_error_iff, Project.readSource, Project.readText, FileTree.readText,
    hentry]
  simp only [decode?_garbled]
  rfl

theorem run_legible_garbled :
    (run ⟨garbled.legible, []⟩ ∅).graph = (run ⟨garbled, []⟩ ∅).graph ∧
      (run ⟨garbled, []⟩ ∅).stats.head? =
        some { phase := .routes, visited := 1, marked := 1, analyzed := 0, failed := 1 } ∧
      (run ⟨garbled.legible, []⟩ ∅).stats.head? =
        some { phase := .routes, visited := 1, marked := 1, analyzed := 1, failed := 0 } ∧
      (garbled.searching toWeb.path toWeb.name toWeb.kind).run ∅ =
        (.error (.decode (decodeLenient toWeb.path) "stream did not contain valid UTF-8"), ∅) ∧
      (visit garbled ⟨∅, { phase := .routes }, []⟩ toWeb).graph =
        (∅ : UsageGraph).markUsed "routes/web.php" := by
  obtain ⟨hgraph, hstats, -, hsearch, hvisit, -⟩ := run_legible garbled [] ∅
  refine ⟨hgraph, stats_garbled, ?_, (hsearch _ _ _ _ (analyzeFile_garbled ∅)).1,
    hvisit _ toWeb _ rfl (analyzeFile_garbled _)⟩
  rw [hstats, List.head?_map, stats_garbled]
  simp [illegibleIn_garbled]

end Garbled

end Survey

end UnusedAssets
