import UnusedAssets.Proofs.FileTree.AddedFile
import UnusedAssets.Proofs.Survey.SamePaths

/-!
# Files that a survey does not see

A file may lie in a project and make no difference to a survey: no name that leads to it, its own or
that of a link, is one that is searched, marked or listed, and none stands where all files are
routes. With such a file or without it an analysis has the same result (`analyze_of_unseen`).
-/

namespace UnusedAssets

open Text FileTree

/-- No file of that name is a source file, an entry file or a candidate. -/
def IsUnsoughtName (name : Bytes) : Prop :=
  endsWith (decodeLenient name) Layout.sourceSuffix = false ∧
    (∀ entry ∈ Survey.entryFiles, name ≠ encode entry) ∧
    ∀ suffix ∈ Candidate.suffixes, endsWith (decodeLenient name) suffix = false

instance (name : Bytes) : Decidable (IsUnsoughtName name) := by
  unfold IsUnsoughtName; infer_instance

/-- The tree `t'` has a file at a location that a survey of the project does not see. -/
structure Unseen (p : Project) (t' : FileTree) (l : Location) : Prop where
  adds : p.tree.AddsFile t' l
  /-- What leads to the file has a name that nothing looks for and does not stand in the folder of
  the routes. -/
  hidden : ∀ here name, t'.NameLeadsTo here name l → IsUnsoughtName name ∧
    p.tree.resolve p.cwd (p.pathTo Layout.routesDir) ≠ .ok here

theorem not_hasName_of_unsought (outer : List Bytes) {name : Bytes} (h : IsUnsoughtName name) :
    Candidate.hasName (Path.textOf (outer ++ [name])) = false := by
  have hslash : ∀ suffix ∈ Candidate.suffixes, '/' ∉ suffix.toList := by decide
  rw [← Bool.not_eq_true, Candidate.hasName_iff]
  rintro ⟨suffix, hmem, hends⟩
  rw [Path.textOf, List.map_append, List.map_singleton,
    endsWith_joinWith_concat_iff (hslash suffix hmem), h.2.2 suffix hmem] at hends
  exact absurd hends (by decide)

namespace Survey

variable {p : Project} {t' : FileTree} {l top : Location} {name : Bytes}
  {names outer : List Bytes} {kind : SourceKind} {v : Visit} {g : UsageGraph} {phase : Phase}

section Unseen

variable (h : Unseen p t' l)

include h

theorem hidden_of_visited (hvisited : isVisited kind (outer ++ [name]) = true)
    (htop : t'.resolve p.cwd (pathBelow p.root (folderNames kind)) = .ok top)
    (hfolder : t'.lookup? top = some .folder) : ¬ t'.NameLeadsTo (top ++ outer) name l := by
  intro hname
  obtain ⟨hunsought, houtside⟩ := h.hidden _ _ hname
  cases kind with
  | handler => simp [isVisited, hunsought.1] at hvisited
  | template =>
    have hview := hunsought.2.2 Layout.viewSuffix (by decide)
    simp [isVisited, hview] at hvisited
  | route =>
    obtain rfl : outer = [] := by simpa [isVisited] using hvisited
    refine houtside ?_
    rw [show Layout.routesDir = folder .route from rfl, pathTo_folder, List.append_nil]
    exact (h.adds.resolve_folder_iff.mp ⟨htop, hfolder⟩).1

theorem visitedNames_of_unseen : visitedNames (p.inTree t') kind = visitedNames p kind := by
  refine OrderedSet.eq_of_mem_iff ((ascending_filesBelow _ _ _).sublist List.filter_sublist)
    ((ascending_filesBelow _ _ _).sublist List.filter_sublist) fun names => ?_
  rw [visitedNames, visitedNames, List.mem_filter, List.mem_filter]
  refine and_congr_left fun hvisited => ?_
  rcases List.eq_nil_or_concat names with rfl | ⟨outer, name, rfl⟩
  · exact iff_of_false (fun hn => (mem_filesBelow_iff.mp hn).1 rfl)
      fun hn => (mem_filesBelow_iff.mp hn).1 rfl
  · rw [List.concat_eq_append] at hvisited ⊢
    exact h.adds.mem_filesBelow_iff fun top htop hfolder =>
      hidden_of_visited h hvisited htop hfolder

theorem visitsOf_of_unseen : visitsOf (p.inTree t') kind = visitsOf p kind :=
  congrArg (List.map (visitTo p kind)) (visitedNames_of_unseen h)

theorem visits_of_unseen : visits (p.inTree t') = visits p := by
  simp only [visits_eq, visitsOf_of_unseen h]

theorem visitsIn_of_unseen : visitsIn (p.inTree t') phase = visitsIn p phase := by
  cases phase <;> simp only [visitsIn, routeVisits_eq, controllerVisits_eq, templateVisits_eq,
    visitsOf_of_unseen h]

/-- The source files themselves are read as before. -/
theorem readSource_of_unseen (hv : v ∈ visits p) (text : String) :
    (p.inTree t').readSource v.path = .ok text ↔ p.readSource v.path = .ok text := by
  rw [← visits_of_unseen h] at hv
  obtain ⟨kind, hv⟩ := mem_visits_iff.mp hv
  obtain ⟨names, hn, rfl⟩ := List.mem_map.mp hv
  obtain ⟨hlisted, hvisited⟩ := List.mem_filter.mp hn
  obtain ⟨hne, -, top, e, htop, he, -⟩ := mem_filesBelow_iff.mp hlisted
  obtain ⟨outer, name, rfl⟩ : ∃ outer name, names = outer ++ [name] :=
    ⟨names.dropLast, names.getLast hne, (List.dropLast_concat_getLast hne).symm⟩
  have hhidden := hidden_of_visited h hvisited htop (lookup?_of_append he hne)
  have hpath : (visitTo (p.inTree t') kind (outer ++ [name])).path =
      pathBelow (pathBelow p.root (folderNames kind)) (outer ++ [name]) := pathBelow_append _ _ _
  rw [Project.readSource_eq_ok_iff, Project.readSource_eq_ok_iff, hpath]
  exact exists_congr fun content => exists_congr fun executable => and_congr_left fun _ =>
    h.adds.entryAt_listed_iff htop he hhidden

theorem found_of_unseen (hv : v ∈ visits p) : found (p.inTree t') v = found p v :=
  found_congr fun text => readSource_of_unseen h hv text

theorem isReadable_of_unseen (hv : v ∈ visits p) :
    isReadable (p.inTree t') v = isReadable p v := by
  have hreadable (q : Project) :
      isReadable q v = true ↔ ∃ text, q.readSource v.path = .ok text := by
    rw [isReadable]
    cases q.readSource v.path <;> simp [Except.isOk, Except.toBool]
  rw [Bool.eq_iff_iff, hreadable, hreadable]
  exact exists_congr (readSource_of_unseen h hv)

theorem entryPaths_of_unseen : entryPaths (p.inTree t') = entryPaths p := by
  have hproper : ∀ entry ∈ entryFiles, IsName entry := by decide
  have hexists : ∀ entry ∈ entryFiles,
      t'.pathExists p.cwd (Path.join (p.pathTo Layout.publicDir) entry) =
        p.tree.pathExists p.cwd (Path.join (p.pathTo Layout.publicDir) entry) := by
    intro entry hentry
    refine h.adds.pathExists_eq (hproper entry hentry) fun here hname => ?_
    exact (h.hidden here entry hname).1.2.1 entry hentry rfl
  rw [entryPaths, entryPaths]
  exact congrArg _ (List.filter_congr hexists)

theorem entriesIn_of_unseen : entriesIn (p.inTree t') phase = entriesIn p phase := by
  cases phase <;> simp only [entriesIn, entryPaths_of_unseen h]

theorem candidates_of_unseen (excludes : List String) :
    (p.inTree t').candidates excludes = p.candidates excludes := by
  -- The file may be listed, so the lists are compared after what is no candidate is left out.
  have hfiles : ((p.inTree t').tree.filesBelow p.cwd p.root).filter
      (fun names => Candidate.hasName (Path.textOf names)) =
        (p.tree.filesBelow p.cwd p.root).filter fun names =>
          Candidate.hasName (Path.textOf names) := by
    refine OrderedSet.eq_of_mem_iff ((ascending_filesBelow _ _ _).sublist List.filter_sublist)
      ((ascending_filesBelow _ _ _).sublist List.filter_sublist) fun names => ?_
    rw [List.mem_filter, List.mem_filter]
    refine and_congr_left fun hname => ?_
    rcases List.eq_nil_or_concat names with rfl | ⟨outer, name, rfl⟩
    · exact iff_of_false (fun hn => (mem_filesBelow_iff.mp hn).1 rfl)
        fun hn => (mem_filesBelow_iff.mp hn).1 rfl
    · rw [List.concat_eq_append] at hname ⊢
      refine h.adds.mem_filesBelow_iff fun top _ _ hleads => ?_
      have hunsought := not_hasName_of_unsought outer (h.hidden _ _ hleads).1
      exact absurd (hname.symm.trans hunsought) (by simp)
  have hnamed (q : Project) : q.namedCandidates excludes =
      sorted ((((q.tree.filesBelow q.cwd q.root).filter
        fun names => Candidate.hasName (Path.textOf names)).map Path.textOf).filter
          fun name => !Candidate.isExcluded excludes name) := by
    rw [Project.namedCandidates, List.filter_map, List.filter_map, List.filter_filter]
    rfl
  rw [Project.candidates_eq, Project.candidates_eq, hnamed, hnamed]
  exact congrArg (fun files => sorted ((files.map Path.textOf).filter
    fun name => !Candidate.isExcluded excludes name)) hfiles

theorem listedIn_of_unseen (excludes : List String) :
    listedIn ⟨p.inTree t', excludes⟩ phase = listedIn ⟨p, excludes⟩ phase := by
  cases phase <;> simp only [listedIn, candidates_of_unseen h]

theorem markedVisits_of_unseen :
    markedVisits (p.inTree t') g (visits (p.inTree t')) = markedVisits p g (visits p) := by
  rw [visits_of_unseen h]
  refine markedVisits_congr ⟨fun _ _ => Iff.rfl, fun _ => Iff.rfl⟩
    (fun _ => not_mem_slash_known) fun v hv r _ => ?_
  rw [found_of_unseen h hv]

theorem counters_of_unseen (excludes : List String) {marked : List Visit}
    (hmarked : ∀ v ∈ marked, v ∈ visits p) :
    counters ⟨p.inTree t', excludes⟩ phase marked = counters ⟨p, excludes⟩ phase marked := by
  have hlooked : lookedAt ⟨p.inTree t', excludes⟩ phase = lookedAt ⟨p, excludes⟩ phase := by
    cases phase <;> simp only [lookedAt, listedIn_of_unseen h]
  have hread : ∀ v ∈ marked, isReadable (p.inTree t') v = isReadable p v :=
    fun v hv => isReadable_of_unseen h (hmarked v hv)
  simp only [counters, visitsIn_of_unseen h, entriesIn_of_unseen h, listedIn_of_unseen h, hlooked]
  congr 1
  · exact List.countP_congr fun v hv => by rw [hread v hv]
  · exact List.countP_congr fun v hv => by rw [hread v hv]

/-- A run leaves the same graph and counts the same. -/
theorem run_of_unseen (excludes : List String) (g : UsageGraph) :
    (run ⟨p.inTree t', excludes⟩ g).graph = (run ⟨p, excludes⟩ g).graph ∧
      (run ⟨p.inTree t', excludes⟩ g).stats = (run ⟨p, excludes⟩ g).stats := by
  constructor
  · have hafter : afterVisits (p.inTree t') g ((visits p).filter fun _ => true) =
        afterVisits p g (visits p) :=
      afterVisits_filter fun v hv => ⟨rfl, found_of_unseen h (markedVisits_sublist.subset hv)⟩
    rw [List.filter_true] at hafter
    rw [graph_run, graph_run, visits_of_unseen h, hafter, entryPaths_of_unseen h,
      candidates_of_unseen h]
  · rw [stats_run, stats_run]
    refine List.map_congr_left fun phase _ => ?_
    have hmarked : markedIn (p.inTree t') g phase = markedIn p g phase := by
      rw [markedIn, markedIn, markedVisits_of_unseen h]
    rw [hmarked]
    exact counters_of_unseen h excludes fun v hv =>
      markedVisits_sublist.subset (List.mem_filter.mp hv).1

end Unseen

end Survey

/-- An analysis has the same result with a file that its survey does not see, or without. -/
theorem Project.analyze_of_unseen {p : Project} {t' : FileTree} {l : Location}
    (h : Unseen p t' l) (s : Settings) :
    ((p.inTree t').analyze s).map (·.1) = (p.analyze s).map (·.1) := by
  have hfolder : t'.isFolder p.cwd p.root = p.tree.isFolder p.cwd p.root := h.adds.isFolder_eq
  obtain ⟨hgraph, hstats⟩ := Survey.run_of_unseen h (Candidate.excludesWith s.excludes) ∅
  cases hroot : p.tree.isFolder p.cwd p.root with
  | false =>
    rw [hroot] at hfolder
    simp [analyze, trace, inTree, rootText, hroot, hfolder]
  | true =>
    rw [hroot] at hfolder
    rw [inTree] at hgraph hstats ⊢
    simp only [analyze, trace, survey, rootText, hroot, hfolder, ↓reduceIte, hgraph, hstats,
      Except.map]

end UnusedAssets
