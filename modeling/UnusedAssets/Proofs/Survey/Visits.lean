import Mathlib.Data.List.Nodup
import UnusedAssets.Proofs.FileTree.LinkFree
import UnusedAssets.Proofs.Listing
import UnusedAssets.Proofs.Survey.Run

/-!
# The visits of a run

The visits of the three phases differ only in the folder they are made to, in which files of it are
visited, and in what else a file is known by; `visits_eq` puts all of them in one form. A visit
names its file by the way to it from the project's folder, and no file is visited twice
(`nodup_paths_visits`). Two files are visited under one name only if their names are read as the same
texts.
-/

namespace UnusedAssets.Survey

open Text FileTree

/-- The names that lead to the folder in which files of a kind are visited. -/
def folderNames : SourceKind → List Bytes
  | .route => ["routes"]
  | .handler => ["app", "Http", "Controllers"]
  | .template => ["resources", "views"]

def folder : SourceKind → String
  | .route => Layout.routesDir
  | .handler => Layout.controllersDir
  | .template => Layout.viewsDir

/-- Whether a file is visited to which the names lead from the folder of its kind. -/
def isVisited : SourceKind → List Bytes → Bool
  | .route, names => names.length = 1
  | .handler, names => endsWith (decodeLenient (names.getLast?.getD [])) Layout.sourceSuffix
  | .template, names => endsWith (decodeLenient (names.getLast?.getD [])) Layout.viewSuffix

def visitTo (p : Project) (kind : SourceKind) (names : List Bytes) : Visit where
  path := pathBelow p.root (folderNames kind ++ names)
  name := Path.textOf (folderNames kind ++ names)
  kind := kind
  known := match kind with
    | .route => ""
    | .handler => Path.stem (pathBelow p.root (folderNames kind ++ names))
    | .template => (Layout.viewName? (Path.textOf (folderNames kind ++ names))).getD ""

/-- The names that lead to the files to be visited, from the folder of their kind. -/
def visitedNames (p : Project) (kind : SourceKind) : List (List Bytes) :=
  (p.tree.filesBelow p.cwd (pathBelow p.root (folderNames kind))).filter (isVisited kind)

def visitsOf (p : Project) (kind : SourceKind) : List Visit :=
  (visitedNames p kind).map (visitTo p kind)

variable {p : Project} {kind : SourceKind} {names : List Bytes} {v : Visit}

theorem isName_of_folderNames : ∀ n ∈ folderNames kind, IsName n := by
  cases kind <;> decide

theorem folderNames_ne_nil : folderNames kind ≠ [] := by
  cases kind <;> simp [folderNames]

theorem isName_of_visited (h : names ∈ visitedNames p kind) :
    ∀ n ∈ folderNames kind ++ names, IsName n := by
  intro n hn
  rcases List.mem_append.mp hn with hn | hn
  · exact isName_of_folderNames n hn
  · exact isName_of_mem_filesBelow (List.mem_filter.mp h).1 n hn

theorem ne_nil_of_visited (h : names ∈ visitedNames p kind) : names ≠ [] :=
  (mem_filesBelow_iff.mp (List.mem_filter.mp h).1).1

/-- Without links, all that stands below the folder of a kind is looked through. -/
theorem visitedNames_of_linkFree {top : Location} (ht : p.tree.LinkFree)
    (hroot : p.tree.resolve p.cwd p.root = .ok top)
    (hpath : pathFault? (pathBelow p.root (folderNames kind)) = none)
    (hfolder : p.tree.lookup? (top ++ folderNames kind) = some .folder) :
    visitedNames p kind = (((p.tree.below (top ++ folderNames kind)).filter fun e => decide
      (isListed (pathBelow p.root (folderNames kind)) e.1 = true ∧ e.2 ≠ .folder)).map (·.1)).filter
        (isVisited kind) := by
  rw [visitedNames, ht.filesBelow_eq, ht.entriesBelow_eq hroot isName_of_folderNames,
    if_pos ⟨hpath, hfolder⟩]

theorem nameOf?_visited (h : names ∈ visitedNames p kind) :
    p.nameOf? (pathBelow p.root (folderNames kind ++ names)) =
      some (Path.textOf (folderNames kind ++ names)) :=
  relativeTo?_pathBelow p.root (by simp [folderNames_ne_nil]) (isName_of_visited h)

theorem between_folderNames : between Path.slash (folderNames kind) = encode (folder kind) := by
  cases kind <;> decide

theorem pathTo_folder (p : Project) (kind : SourceKind) :
    p.pathTo (folder kind) = pathBelow p.root (folderNames kind) := by
  rw [Project.pathTo, ← between_folderNames]
  exact join_between p.root folderNames_ne_nil isName_of_folderNames

/-- Whoever makes the right visit to each file by its path makes the visits of the kind. -/
theorem filterMap_visited (kind : SourceKind) {dir : Bytes} {visit? : Bytes → Option Visit}
    (hdir : dir = pathBelow p.root (folderNames kind))
    (h : ∀ names ∈ visitedNames p kind,
      visit? (pathBelow p.root (folderNames kind ++ names)) = some (visitTo p kind names)) :
    (((p.tree.filesBelow p.cwd dir).filter (isVisited kind)).map (pathBelow dir)).filterMap
      visit? = visitsOf p kind := by
  subst hdir
  rw [List.filterMap_map, visitsOf, ← List.filterMap_eq_map]
  refine List.filterMap_congr fun names hn => ?_
  rw [Function.comp_apply, ← pathBelow_append]
  exact h names hn

theorem routeVisits_eq : routeVisits p = visitsOf p .route := by
  rw [routeVisits, filesIn]
  refine filterMap_visited .route (pathTo_folder p .route) fun names hn => ?_
  rw [nameOf?_visited hn]
  rfl

theorem controllerVisits_eq : controllerVisits p = visitsOf p .handler := by
  rw [controllerVisits, filesWithSuffix]
  refine filterMap_visited .handler (pathTo_folder p .handler) fun names hn => ?_
  rw [nameOf?_visited hn]
  rfl

theorem viewName?_visited (h : names ∈ visitedNames p .template) :
    (Layout.viewName? (Path.textOf (folderNames .template ++ names))).isSome = true := by
  have hne := ne_nil_of_visited h
  obtain ⟨outer, last, rfl⟩ : ∃ outer last, names = outer ++ [last] :=
    ⟨names.dropLast, names.getLast hne, (List.dropLast_concat_getLast hne).symm⟩
  have hlast : endsWith (decodeLenient last) Layout.viewSuffix = true := by
    simpa [isVisited] using (List.mem_filter.mp h).2
  have hends : endsWith (Path.textOf (outer ++ [last])) Layout.viewSuffix = true := by
    rw [Path.textOf, List.map_append, List.map_singleton]
    exact (endsWith_joinWith_concat_iff (by decide)).mpr hlast
  obtain ⟨inner, hinner⟩ := endsWith_iff_append.mp hends
  have htext : Path.textOf (folderNames .template ++ (outer ++ [last])) =
      Layout.viewsDir ++ "/" ++ Path.textOf (outer ++ [last]) := by
    rw [Path.textOf, List.map_append, joinWith_append "/" (by simp [folderNames_ne_nil]) (by simp)]
    rfl
  have hlead : dropLead? (Path.textOf (folderNames .template ++ (outer ++ [last])))
      (Layout.viewsDir ++ "/") = some (Path.textOf (outer ++ [last])) :=
    dropLead?_eq_some_iff.mpr (by rw [htext])
  have htail : dropTail? (Path.textOf (outer ++ [last])) Layout.viewSuffix = some inner :=
    dropTail?_eq_some_iff.mpr hinner
  simp [Layout.viewName?, hlead, htail]

theorem templateVisits_eq : templateVisits p = visitsOf p .template := by
  rw [templateVisits, filesWithSuffix]
  refine filterMap_visited .template (pathTo_folder p .template) fun names hn => ?_
  obtain ⟨view, hview⟩ := Option.isSome_iff_exists.mp (viewName?_visited hn)
  rw [nameOf?_visited hn]
  simp [visitTo, hview]

def listedFor (p : Project) : SourceKind → List Bytes
  | .route => p.tree.filesIn p.cwd (p.pathTo Layout.routesDir)
  | .handler =>
    p.tree.filesWithSuffix p.cwd (p.pathTo Layout.controllersDir) Layout.sourceSuffix
  | .template => p.tree.filesWithSuffix p.cwd (p.pathTo Layout.viewsDir) Layout.viewSuffix

theorem path_visitTo (p : Project) (kind : SourceKind) (names : List Bytes) :
    (visitTo p kind names).path = pathBelow (pathBelow p.root (folderNames kind)) names :=
  pathBelow_append _ _ _

/-- Each file that is listed is visited, once and in its turn. -/
theorem map_path_visitsOf (p : Project) (kind : SourceKind) :
    (visitsOf p kind).map (·.path) = listedFor p kind := by
  have hpaths {dir : Bytes} (hdir : dir = pathBelow p.root (folderNames kind)) :
      (visitsOf p kind).map (·.path) =
        ((p.tree.filesBelow p.cwd dir).filter (isVisited kind)).map (pathBelow dir) := by
    subst hdir
    rw [visitsOf, List.map_map]
    exact List.map_congr_left fun names _ => path_visitTo p kind names
  cases kind with
  | route => exact hpaths (pathTo_folder p .route)
  | handler => exact hpaths (pathTo_folder p .handler)
  | template => exact hpaths (pathTo_folder p .template)

theorem visits_eq (p : Project) :
    visits p = visitsOf p .route ++ visitsOf p .handler ++ visitsOf p .template := by
  rw [visits, routeVisits_eq, controllerVisits_eq, templateVisits_eq]

theorem mem_visits_iff : v ∈ visits p ↔ ∃ kind, v ∈ visitsOf p kind := by
  rw [visits_eq, List.mem_append, List.mem_append]
  constructor
  · intro h
    rcases h with (h | h) | h
    · exact ⟨_, h⟩
    · exact ⟨_, h⟩
    · exact ⟨_, h⟩
  · intro h
    obtain ⟨kind, h⟩ := h
    cases kind with
    | route => exact .inl (.inl h)
    | handler => exact .inl (.inr h)
    | template => exact .inr h

theorem nameOf?_of_mem_visits (h : v ∈ visits p) : p.nameOf? v.path = some v.name := by
  obtain ⟨kind, h⟩ := mem_visits_iff.mp h
  obtain ⟨names, hn, rfl⟩ := List.mem_map.mp h
  exact nameOf?_visited hn

theorem path_inj {kind' : SourceKind} {names' : List Bytes} (h : names ∈ visitedNames p kind)
    (h' : names' ∈ visitedNames p kind')
    (he : (visitTo p kind names).path = (visitTo p kind' names').path) :
    kind = kind' ∧ names = names' := by
  have hcomponents := congrArg Path.components he
  dsimp only [visitTo] at hcomponents
  rw [components_pathBelow _ (isName_of_visited h),
    components_pathBelow _ (isName_of_visited h')] at hcomponents
  have hall := List.append_cancel_left hcomponents
  have hkind : kind = kind' := by
    cases kind <;> cases kind' <;> simp_all [folderNames]
  subst hkind
  exact ⟨rfl, List.append_cancel_left hall⟩

theorem nodup_paths_visitsOf (p : Project) (kind : SourceKind) :
    ((visitsOf p kind).map (·.path)).Nodup := by
  have hnodup : (visitedNames p kind).Nodup := (nodup_filesBelow _ _ _).sublist List.filter_sublist
  rw [visitsOf, List.map_map]
  exact hnodup.map_on fun names hn names' hn' he => (path_inj hn hn' he).2

theorem kind_of_mem_visitsOf (h : v ∈ visitsOf p kind) : v.kind = kind := by
  obtain ⟨names, -, rfl⟩ := List.mem_map.mp h
  rfl

theorem disjoint_paths {kind' : SourceKind} (hne : kind ≠ kind') :
    ∀ a ∈ (visitsOf p kind).map (·.path), ∀ b ∈ (visitsOf p kind').map (·.path), a ≠ b := by
  intro a ha b hb hab
  simp only [visitsOf, List.map_map, List.mem_map] at ha hb
  obtain ⟨names, hn, rfl⟩ := ha
  obtain ⟨names', hn', rfl⟩ := hb
  exact hne (path_inj hn hn' hab).1

/-- No file is visited twice. -/
theorem nodup_paths_visits (p : Project) : ((visits p).map (·.path)).Nodup := by
  rw [visits_eq, List.map_append, List.map_append]
  refine List.nodup_append.mpr ⟨List.nodup_append.mpr ⟨nodup_paths_visitsOf p .route,
    nodup_paths_visitsOf p .handler, disjoint_paths (by decide)⟩,
    nodup_paths_visitsOf p .template, ?_⟩
  intro a ha
  rcases List.mem_append.mp ha with ha | ha
  · exact disjoint_paths (by decide) a ha
  · exact disjoint_paths (by decide) a ha

/-- Files with the same name are one file, unless something was replaced when their names were
read. -/
theorem eq_of_name_eq {v' : Visit} (hv : v ∈ visits p) (hv' : v' ∈ visits p)
    (hname : v.name = v'.name) (hread : replacement ∉ v.name.toList) : v = v' := by
  obtain ⟨kind, hv⟩ := mem_visits_iff.mp hv
  obtain ⟨kind', hv'⟩ := mem_visits_iff.mp hv'
  obtain ⟨names, hn, rfl⟩ := List.mem_map.mp hv
  obtain ⟨names', hn', rfl⟩ := List.mem_map.mp hv'
  have hall := Path.textOf_inj (by simp [folderNames_ne_nil]) (isName_of_visited hn)
    (by simp [folderNames_ne_nil]) (isName_of_visited hn') hread hname
  have hpath : (visitTo p kind names).path = (visitTo p kind' names').path :=
    congrArg (pathBelow p.root) hall
  obtain ⟨rfl, rfl⟩ := path_inj hn hn' hpath
  rfl

theorem visits_eq_nil
    (h : ∀ kind l, p.tree.resolve p.cwd (pathBelow p.root (folderNames kind)) ≠ .ok l) :
    visits p = [] := by
  rw [List.eq_nil_iff_forall_not_mem]
  intro v hv
  obtain ⟨kind, hv⟩ := mem_visits_iff.mp hv
  obtain ⟨names, hn, -⟩ := List.mem_map.mp hv
  obtain ⟨-, -, l, -, hl, -⟩ := mem_filesBelow_iff.mp (List.mem_filter.mp hn).1
  exact h kind l hl

theorem visits_eq_nil_of_absent {top : Location} (htop : p.tree.resolve p.cwd p.root = .ok top)
    (h : ∀ name ∈ (["routes", "app", "resources"] : List Bytes),
      p.tree.lookup? (top ++ [name]) = none) :
    visits p = [] := by
  refine visits_eq_nil fun kind l hl => ?_
  obtain ⟨-, links, -, hw⟩ := resolve_eq_ok_iff.mp hl
  obtain ⟨m, first, last, -, hroot, hw⟩ :=
    hw.of_append_names folderNames_ne_nil isName_of_folderNames
  obtain ⟨-, links', -, hroot'⟩ := resolve_eq_ok_iff.mp htop
  obtain ⟨-, rfl⟩ := hroot.unique hroot'
  obtain ⟨name, rest, hnames, hmem⟩ : ∃ name rest, folderNames kind = name :: rest ∧
      name ∈ (["routes", "app", "resources"] : List Bytes) := by
    cases kind <;> exact ⟨_, _, rfl, by simp⟩
  have hname : IsName name := isName_of_folderNames name (by rw [hnames]; exact List.mem_cons_self)
  rw [hnames] at hw
  obtain ⟨e, he⟩ := hw.exists_first hname
  rw [h name hmem] at he
  exact absurd he (by simp)

/-- Where nothing is visited only the public entries are in use. -/
theorem not_mem_used_run {s : Survey} {path : String} (h : visits s.project = [])
    (hpath : ∀ name ∈ entryFiles, path ≠ Layout.publicDir ++ "/" ++ name) :
    path ∉ (s.run ∅).graph.used := by
  intro hmem
  rcases mem_used_run.mp hmem with hentry | hvisit
  · obtain ⟨name, hname, rfl⟩ := List.mem_map.mp hentry
    exact hpath name (List.mem_filter.mp hname).1 rfl
  · rw [h] at hvisit
    exact UsageGraph.not_mem_used_empty hvisit

end UnusedAssets.Survey
