import UnusedAssets.Proofs.Candidate
import UnusedAssets.Proofs.FileTree.PathsBelow
import UnusedAssets.Proofs.Survey.MarkingRule
import UnusedAssets.Proofs.Survey.Phases

/-!
# Templates and candidates

Templates are listed from the folder of the views on, by the endings of their names; candidates are
listed from the project's folder on, by their paths. As long as the way to the folder of the views
leads through no link, the templates that are not excluded are the candidates that are views
(`templates_are_candidates`). Every template that is listed is visited.
-/

namespace UnusedAssets.Survey

open Text FileTree Candidate

variable {p : Project} {excludes : List String} {names : List Bytes} {path : String}

/-- The way from the folder of a project to the folder of its views leads through no link. -/
def HasPlainViews (p : Project) : Prop :=
  ∀ top, p.tree.resolve p.cwd p.root = .ok top → ∀ target,
    p.tree.lookup? (top ++ [encode "resources"]) ≠ some (.link target) ∧
      p.tree.lookup? (top ++ [encode "resources", encode "views"]) ≠ some (.link target)

theorem pathTo_views : p.pathTo Layout.viewsDir = pathBelow p.root (folderNames .template) :=
  pathTo_folder p .template

theorem split_viewsDir :
    split Layout.viewsDir '/' = (folderNames .template).map decodeLenient := by
  decide

/-- What is below the folder of the views has a path that begins with that of the folder. -/
theorem startsWith_views_iff (hne : names ≠ []) (hnames : ∀ n ∈ names, IsName n) :
    startsWith (Path.textOf names) (Layout.viewsDir ++ "/") = true ↔
      ∃ more, more ≠ [] ∧ names = folderNames .template ++ more := by
  rw [startsWith_append_slash_iff, split_viewsDir, Path.split_textOf hne hnames]
  constructor
  · intro h
    obtain ⟨⟨texts, htexts⟩, hproper⟩ := h
    obtain ⟨lead, more, rfl, hlead, rfl⟩ := List.map_eq_append_iff.mp htexts.symm
    have hfolder : folderNames .template = lead := by
      refine Path.textOf_inj folderNames_ne_nil isName_of_folderNames ?_
        (fun n hn => hnames n (List.mem_append_left _ hn)) (by decide) ?_
      · rintro rfl
        exact absurd hlead (by simp [folderNames])
      · rw [Path.textOf, Path.textOf, hlead]
    exact ⟨more, fun hnil => hproper (by simp [hnil, hlead]), by rw [hfolder]⟩
  · intro h
    obtain ⟨more, hmore, rfl⟩ := h
    rw [List.map_append]
    exact ⟨List.prefix_append _ _, by simpa [eq_comm] using hmore⟩

theorem isVisited_template_iff (hne : names ≠ []) : isVisited .template names = true ↔
    endsWith (Path.textOf (folderNames .template ++ names)) Layout.viewSuffix = true := by
  have hslash : '/' ∉ Layout.viewSuffix.toList := by decide
  rw [← List.dropLast_concat_getLast hne, ← List.append_assoc, Path.textOf, List.map_append,
    List.map_singleton, endsWith_joinWith_concat_iff hslash]
  simp [isVisited]

theorem exists_templateVisit_iff : (∃ v ∈ templateVisits p, v.name = path) ↔
    ∃ names ∈ visitedNames p .template, path = Path.textOf (folderNames .template ++ names) := by
  rw [templateVisits_eq, visitsOf]
  constructor
  · rintro ⟨v, hv, rfl⟩
    obtain ⟨names, hvisited, rfl⟩ := List.mem_map.mp hv
    exact ⟨names, hvisited, rfl⟩
  · rintro ⟨names, hvisited, rfl⟩
    exact ⟨_, List.mem_map_of_mem hvisited, rfl⟩

/-- A template is a file of the project below the folder of the views, with the ending of a view. -/
theorem mem_visitedNames_template_iff (hroot : p.root ≠ []) (hviews : HasPlainViews p) :
    names ∈ visitedNames p .template ↔ names ≠ [] ∧
      folderNames .template ++ names ∈ p.tree.filesBelow p.cwd p.root ∧
        endsWith (Path.textOf (folderNames .template ++ names)) Layout.viewSuffix = true := by
  have plain : ∀ top, p.tree.resolve p.cwd p.root = .ok top → ∀ outer, outer ≠ [] →
      outer <+: folderNames .template →
      ∀ target, p.tree.lookup? (top ++ outer) ≠ some (.link target) := by
    intro top htop outer houter hprefix target
    rw [folderNames, List.prefix_cons_iff, or_iff_right houter] at hprefix
    obtain ⟨inner, rfl, hinner⟩ := hprefix
    rw [List.prefix_cons_iff] at hinner
    rcases hinner with rfl | ⟨rest, rfl, hrest⟩
    · exact (hviews top htop target).1
    · rw [List.prefix_nil.mp hrest]
      exact (hviews top htop target).2
  rw [visitedNames, List.mem_filter, mem_filesBelow_pathBelow_iff hroot folderNames_ne_nil
    isName_of_folderNames plain, and_assoc]
  exact and_congr_right fun hne => and_congr_right fun _ => isVisited_template_iff hne

/-- A template that is not excluded is a candidate with the path of a view, and the other way
round. -/
theorem template_iff_candidate (hroot : p.root ≠ []) (hviews : HasPlainViews p) :
    (∃ v ∈ templateVisits p, v.name = path) ∧ isExcluded excludes path = false ↔
      path ∈ p.candidates excludes ∧ startsWith path (Layout.viewsDir ++ "/") = true ∧
        endsWith path Layout.viewSuffix = true := by
  rw [exists_templateVisit_iff, Project.mem_candidates]
  simp only [mem_visitedNames_template_iff hroot hviews]
  constructor
  · rintro ⟨⟨names, ⟨hne, hfile, hends⟩, rfl⟩, hexcluded⟩
    have hname : hasName (Path.textOf (folderNames .template ++ names)) = true :=
      hasName_iff.mpr ⟨Layout.viewSuffix, by decide, hends⟩
    have hbelow := (startsWith_views_iff (by simp [folderNames_ne_nil])
      (isName_of_mem_filesBelow hfile)).mpr ⟨names, hne, rfl⟩
    exact ⟨⟨⟨_, hfile, rfl⟩, hname, hexcluded⟩, hbelow, hends⟩
  · rintro ⟨⟨⟨all, hfile, rfl⟩, -, hexcluded⟩, hbelow, hends⟩
    obtain ⟨names, hne, rfl⟩ := (startsWith_views_iff (mem_filesBelow_iff.mp hfile).1
      (isName_of_mem_filesBelow hfile)).mp hbelow
    exact ⟨⟨names, ⟨hne, hfile, hends⟩, rfl⟩, hexcluded⟩

/-- What is listed for the templates has a name in the project, and a dotted name of a view. -/
theorem exists_viewName_of_listed {path : Bytes}
    (h : path ∈ p.tree.filesWithSuffix p.cwd (p.pathTo Layout.viewsDir) Layout.viewSuffix) :
    ∃ name view, p.nameOf? path = some name ∧ Layout.viewName? name = some view := by
  rw [filesWithSuffix, pathTo_views] at h
  obtain ⟨names, hlisted, rfl⟩ := List.mem_map.mp h
  have hvisited : names ∈ visitedNames p .template := hlisted
  obtain ⟨view, hview⟩ := Option.isSome_iff_exists.mp (viewName?_visited hvisited)
  exact ⟨_, view, by rw [← pathBelow_append, nameOf?_visited hvisited], hview⟩

theorem visited_templates (p : Project) (excludes : List String) (g : UsageGraph) :
    (runPhase ⟨p, excludes⟩ .templates g).stats.visited =
      (p.tree.filesWithSuffix p.cwd (p.pathTo Layout.viewsDir) Layout.viewSuffix).length := by
  rw [stats_runPhase]
  exact visited_counters _ .template _

/-- The templates that are not excluded are the candidates with the paths of views, and all that are
listed are visited. No folder has an empty path; continued by names it would be read as a path from
the folder where the program runs. -/
theorem templates_are_candidates (p : Project) (excludes : List String) (hroot : p.root ≠ [])
    (hviews : HasPlainViews p) :
    (∀ path, (∃ v ∈ templateVisits p, v.name = path) ∧ isExcluded excludes path = false ↔
      path ∈ p.candidates excludes ∧ startsWith path "resources/views/" = true ∧
        endsWith path ".blade.php" = true) ∧
    (∀ path ∈ p.tree.filesWithSuffix p.cwd (p.pathTo Layout.viewsDir) Layout.viewSuffix,
      ∃ name view, p.nameOf? path = some name ∧ Layout.viewName? name = some view) ∧
    ∀ g, (runPhase ⟨p, excludes⟩ .templates g).stats.visited =
      (p.tree.filesWithSuffix p.cwd (p.pathTo Layout.viewsDir) Layout.viewSuffix).length :=
  ⟨fun _ => template_iff_candidate hroot hviews, fun _ => exists_viewName_of_listed,
    visited_templates p excludes⟩

theorem templates_are_candidates_shop :
    shop.root ≠ [] ∧ HasPlainViews shop ∧
      "resources/views/home.blade.php" ∈ shop.candidates ["vendor/"] := by
  have hroot : shop.root ≠ [] := by decide
  have hviews : HasPlainViews shop :=
    fun top _ target => ⟨linkFree_shop _ target, linkFree_shop _ target⟩
  obtain ⟨hagree, -, -⟩ := templates_are_candidates shop ["vendor/"] hroot hviews
  have hvisit : visitTo shop .template [encode "home.blade.php"] ∈ templateVisits shop := by
    rw [templateVisits_eq, visitsOf_shop]
    exact List.mem_singleton.mpr rfl
  exact ⟨hroot, hviews, ((hagree _).mp ⟨⟨_, hvisit, rfl⟩, by decide⟩).1⟩

end UnusedAssets.Survey
