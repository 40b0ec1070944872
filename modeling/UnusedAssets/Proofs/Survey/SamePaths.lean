import UnusedAssets.Proofs.Survey.Growth
import UnusedAssets.Proofs.Survey.PhaseOrder

/-!
# Runs in trees with the same paths

Whatever the files hold, trees with the same paths are listed alike, so a run makes the same visits.
If in both trees the files refer to the same files and routes, the visits mark the same files, and
nothing but the names that lead nowhere can tell the two graphs apart (`run_of_sameTargets`).
-/

namespace UnusedAssets.Survey

open Text FileTree

variable {p : Project} {t' : FileTree} {g : UsageGraph} {kind : SourceKind} {phase : Phase}
  {v : Visit} {excludes : List String} {marked : List Visit} {content : Bytes}
  {executable : Bool} {x : String}

section File

theorem readSource_of_file (h : p.tree.entryAt p.cwd v.path = .ok (.file content executable)) :
    (p.readSource v.path).toOption = decode? content := by
  rw [Project.readSource, Project.readText, FileTree.readText, h]
  cases hd : decode? content <;> simp only [hd, Except.toOption]

theorem found_of_file (h : p.tree.entryAt p.cwd v.path = .ok (.file content executable)) :
    found p v = (decode? content).elim [] (extract v.kind) := by
  rw [← readSource_of_file h, found]
  cases p.readSource v.path <;> rfl

theorem isReadable_of_file (h : p.tree.entryAt p.cwd v.path = .ok (.file content executable)) :
    isReadable p v = (decode? content).isSome := by
  rw [← readSource_of_file h, isReadable]
  cases p.readSource v.path <;> rfl

variable (h : ∀ content executable, p.tree.entryAt p.cwd v.path ≠ .ok (.file content executable))

include h

theorem readSource_ne_ok_of_no_file (text : String) : p.readSource v.path ≠ .ok text := by
  intro htext
  obtain ⟨content, executable, hentry, -⟩ := Project.readSource_eq_ok_iff.mp htext
  exact h content executable hentry

theorem found_of_no_file : found p v = [] := by
  have hread := readSource_ne_ok_of_no_file h
  rw [found]
  cases htext : p.readSource v.path with
  | ok text => exact absurd htext (hread text)
  | error f => rfl

theorem isReadable_of_no_file : isReadable p v = false := by
  have hread := readSource_ne_ok_of_no_file h
  rw [isReadable]
  cases htext : p.readSource v.path with
  | ok text => exact absurd htext (hread text)
  | error f => rfl

end File

section SamePaths

variable (h : p.tree.SamePaths t')

include h

theorem visitsOf_of_samePaths : visitsOf (p.inTree t') kind = visitsOf p kind :=
  (visitsOf_sublist (p := p.inTree t') h.2 kind).antisymm (visitsOf_sublist h.1 kind)

theorem visits_of_samePaths : visits (p.inTree t') = visits p :=
  (visits_sublist (p := p.inTree t') h.2).antisymm (visits_sublist h.1)

theorem visitsIn_of_samePaths : visitsIn (p.inTree t') phase = visitsIn p phase := by
  cases phase <;> simp only [visitsIn, routeVisits_eq, controllerVisits_eq, templateVisits_eq,
    visitsOf_of_samePaths h]

theorem entryPaths_of_samePaths : x ∈ entryPaths (p.inTree t') ↔ x ∈ entryPaths p :=
  ⟨mem_entryPaths_of_grown (p := p.inTree t') h.2, mem_entryPaths_of_grown h.1⟩

theorem entriesIn_of_samePaths : entriesIn (p.inTree t') phase = entriesIn p phase := by
  have hexists (name : String) : t'.pathExists p.cwd (Path.join (p.pathTo Layout.publicDir) name) =
      p.tree.pathExists p.cwd (Path.join (p.pathTo Layout.publicDir) name) := h.pathExists_eq
  have hentries : entryPaths (p.inTree t') = entryPaths p := by
    rw [entryPaths, entryPaths]
    exact congrArg _ (List.filter_congr fun name _ => hexists name)
  cases phase <;> simp only [entriesIn, hentries]

theorem candidates_of_samePaths {excludes : List String} :
    (p.inTree t').candidates excludes = p.candidates excludes := by
  have hfiles : t'.filesBelow p.cwd p.root = p.tree.filesBelow p.cwd p.root :=
    (h.2.filesBelow_sublist p.cwd p.root).antisymm (h.1.filesBelow_sublist p.cwd p.root)
  simp only [Project.candidates_eq, Project.namedCandidates, Project.inTree, hfiles]

theorem listedIn_of_samePaths :
    listedIn ⟨p.inTree t', excludes⟩ phase = listedIn ⟨p, excludes⟩ phase := by
  cases phase <;> simp only [listedIn, candidates_of_samePaths h]

/-- What a phase counts differs only in how many of the marked files can be read. -/
theorem counters_of_samePaths : counters ⟨p.inTree t', excludes⟩ phase marked =
    { counters ⟨p, excludes⟩ phase marked with
      analyzed := marked.countP (isReadable (p.inTree t'))
      failed := marked.countP fun v => !isReadable (p.inTree t') v } := by
  have hlooked : lookedAt ⟨p.inTree t', excludes⟩ phase = lookedAt ⟨p, excludes⟩ phase := by
    cases phase <;> simp only [lookedAt, listedIn_of_samePaths h]
  simp only [counters, visitsIn_of_samePaths h, entriesIn_of_samePaths h, listedIn_of_samePaths h,
    hlooked]

variable (hrefs : ∀ v ∈ visits p, SameTargets p (p.inTree t') v)

include hrefs

theorem markedVisits_of_sameTargets :
    markedVisits (p.inTree t') g (visits (p.inTree t')) = markedVisits p g (visits p) := by
  rw [visits_of_samePaths h]
  exact (markedVisits_congr ⟨fun _ _ => Iff.rfl, fun _ => Iff.rfl⟩
    (fun _ => not_mem_slash_known) hrefs).symm

/-- What a run counts differs only in how many of the marked files can be read. -/
theorem stats_of_sameTargets (excludes : List String) (g : UsageGraph) :
    (run ⟨p.inTree t', excludes⟩ g).stats = Phase.all.map fun phase =>
      { counters ⟨p, excludes⟩ phase (markedIn p g phase) with
        analyzed := (markedIn p g phase).countP (isReadable (p.inTree t'))
        failed := (markedIn p g phase).countP fun v => !isReadable (p.inTree t') v } := by
  have hmarked (phase : Phase) : markedIn (p.inTree t') g phase = markedIn p g phase := by
    rw [markedIn, markedIn, markedVisits_of_sameTargets h hrefs]
  rw [stats_run]
  simp only [hmarked, counters_of_samePaths h]

/-- Files that refer to the same leave the same candidates, the same in use and the same edges. -/
theorem run_of_sameTargets (excludes : List String) (g : UsageGraph) :
    (run ⟨p.inTree t', excludes⟩ g).graph.candidates = (run ⟨p, excludes⟩ g).graph.candidates ∧
      (run ⟨p.inTree t', excludes⟩ g).graph.used = (run ⟨p, excludes⟩ g).graph.used ∧
      (run ⟨p.inTree t', excludes⟩ g).graph.edges = (run ⟨p, excludes⟩ g).graph.edges := by
  have hmarked := markedVisits_of_sameTargets (g := g) h hrefs
  have hfound : ∀ v ∈ markedVisits p g (visits p), SameTargets p (p.inTree t') v :=
    fun v hv => hrefs v (markedVisits_sublist.subset hv)
  refine ⟨OrderedSet.ext_mem fun x => ?_, OrderedSet.ext_mem fun x => ?_,
    OrderedSet.ext_mem fun e => ?_⟩
  · simp only [mem_candidates_run]
    rw [candidates_of_samePaths h]
  · simp only [mem_used_run, mem_used_afterVisits, hmarked]
    refine or_congr (entryPaths_of_samePaths h) (or_congr_right ?_)
    refine exists_congr fun v => and_congr_right fun hv => or_congr_right ?_
    exact exists_congr fun r => and_congr_left fun htarget => (hfound v hv r (.of_file htarget)).symm
  · simp only [edges_run, mem_edges_afterVisits, hmarked]
    refine or_congr_right (exists_congr fun v => and_congr_right fun hv => and_congr_right fun _ => ?_)
    exact exists_congr fun r => and_congr_left fun htarget =>
      (hfound v hv r (htarget.elim .of_file .of_route)).symm

end SamePaths

end UnusedAssets.Survey
