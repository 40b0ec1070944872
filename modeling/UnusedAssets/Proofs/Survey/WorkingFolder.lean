import UnusedAssets.Analysis
import UnusedAssets.Config
import UnusedAssets.Proofs.Survey.Visits

/-!
# Projects with absolute paths

An absolute path leads to the same place in whatever folder it is read, and what an analysis reads of
a project it reads by paths that begin with that of the project. So a project with an absolute path
is analysed alike, with the same configuration, in whatever folder that is done
(`analyze_startedIn`, `load_startedIn`).
-/

namespace UnusedAssets

open Text FileTree

namespace Path

theorem isAbsolute_join_of_absolute {path : Bytes} (h : isAbsolute path = true) (next : Bytes) :
    isAbsolute (join path next) = true := by
  by_cases hnext : isAbsolute next = true
  · rw [join, if_pos hnext, hnext]
  · rw [isAbsolute_join path (eq_false_of_ne_true hnext), h]

theorem isAbsolute_pathBelow_of_absolute {dir : Bytes} (h : isAbsolute dir = true)
    (names : List Bytes) : isAbsolute (pathBelow dir names) = true := by
  induction names generalizing dir with
  | nil => exact h
  | cons name names ih => exact ih (isAbsolute_join_of_absolute h name)

end Path

namespace FileTree

variable {t : FileTree} {path : Bytes} {cwd cwd' : Location} (h : Path.isAbsolute path = true)

include h

theorem resolve_of_absolute : t.resolve cwd path = t.resolve cwd' path := by
  simp only [resolve, origin, if_pos h]

theorem entryAt_of_absolute : t.entryAt cwd path = t.entryAt cwd' path := by
  rw [entryAt, entryAt, resolve_of_absolute h]

theorem pathExists_of_absolute : t.pathExists cwd path = t.pathExists cwd' path := by
  rw [pathExists, pathExists, entryAt_of_absolute h]

theorem isFile_of_absolute : t.isFile cwd path = t.isFile cwd' path := by
  rw [isFile, isFile, entryAt_of_absolute h]

theorem isFolder_of_absolute : t.isFolder cwd path = t.isFolder cwd' path := by
  rw [isFolder, isFolder, entryAt_of_absolute h]

theorem readText_of_absolute : t.readText cwd path = t.readText cwd' path := by
  rw [readText, readText, entryAt_of_absolute h]

theorem entriesBelow_of_absolute : t.entriesBelow cwd path = t.entriesBelow cwd' path := by
  rw [entriesBelow, entriesBelow, resolve_of_absolute h]

theorem unopenedBelow_of_absolute : t.unopenedBelow cwd path = t.unopenedBelow cwd' path := by
  rw [unopenedBelow, unopenedBelow, entriesBelow_of_absolute h]

theorem filesBelow_of_absolute : t.filesBelow cwd path = t.filesBelow cwd' path := by
  have hcounts (names : List Bytes) (e : Entry) :
      t.countsAsFile cwd (pathBelow path names) e = t.countsAsFile cwd' (pathBelow path names) e := by
    cases e with
    | link target => exact isFile_of_absolute (Path.isAbsolute_pathBelow_of_absolute h names)
    | file content executable => rfl
    | folder => rfl
  simp only [filesBelow, hcounts]
  rw [entriesBelow_of_absolute h]

end FileTree

def Project.startedIn (p : Project) (cwd : Location) : Project := { p with cwd }

variable {p : Project} {cwd : Location}

namespace Survey

variable {v : Visit} {kind : SourceKind} (h : Path.isAbsolute p.root = true)

include h

theorem visitsOf_startedIn : visitsOf (p.startedIn cwd) kind = visitsOf p kind := by
  have hdir := Path.isAbsolute_pathBelow_of_absolute h (folderNames kind)
  have hnames : visitedNames (p.startedIn cwd) kind = visitedNames p kind :=
    congrArg (List.filter _) (filesBelow_of_absolute hdir)
  rw [visitsOf, hnames]
  rfl

theorem candidates_startedIn (excludes : List String) :
    (p.startedIn cwd).candidates excludes = p.candidates excludes := by
  have hfiles : (p.startedIn cwd).tree.filesBelow cwd p.root = p.tree.filesBelow p.cwd p.root :=
    filesBelow_of_absolute h
  rw [Project.candidates, Project.candidates, ← hfiles]
  rfl

theorem listingEvents_startedIn (dir : Bytes) :
    listingEvents (p.startedIn cwd) ((p.startedIn cwd).pathTo dir) =
      listingEvents p (p.pathTo dir) :=
  congrArg (List.map _) (unopenedBelow_of_absolute (Path.isAbsolute_join_of_absolute h dir))

theorem candidateEvents_startedIn (excludes : List String) :
    candidateEvents (p.startedIn cwd) excludes = candidateEvents p excludes := by
  have hfolders : (p.startedIn cwd).tree.unopenedBelow cwd p.root =
      p.tree.unopenedBelow p.cwd p.root := unopenedBelow_of_absolute h
  rw [candidateEvents, candidateEvents, Project.unopened, Project.unopened, ← hfolders]
  rfl

theorem readSource_startedIn (hv : v ∈ visitsOf p kind) :
    (p.startedIn cwd).readSource v.path = p.readSource v.path := by
  obtain ⟨names, -, rfl⟩ := List.mem_map.mp hv
  have hpath := Path.isAbsolute_pathBelow_of_absolute h (folderNames kind ++ names)
  have htext : (p.startedIn cwd).readText (visitTo p kind names).path =
      p.readText (visitTo p kind names).path := readText_of_absolute hpath
  rw [Project.readSource, Project.readSource, htext]

theorem visit_startedIn (hv : v ∈ visitsOf p kind) (b : Progress) :
    visit (p.startedIn cwd) b v = visit p b v := by
  have hfile (g : UsageGraph) : (p.startedIn cwd).analyzeFile v.path v.name v.kind g =
      p.analyzeFile v.path v.name v.kind g := by
    rw [Project.analyzeFile, Project.analyzeFile, readSource_startedIn h hv]
  simp only [visit, hfile]

theorem visitAll_startedIn (kind : SourceKind) (phase : Phase) (events : List Event)
    (g : UsageGraph) : visitAll (p.startedIn cwd) phase events (visitsOf (p.startedIn cwd) kind) g =
      visitAll p phase events (visitsOf p kind) g := by
  rw [visitsOf_startedIn h]
  exact List.foldl_ext _ _ _ fun b v hv => visit_startedIn h hv b

theorem markEntry_startedIn (b : Progress) (name : String) :
    markEntry (p.startedIn cwd) b name = markEntry p b name := by
  have hpublic := Path.isAbsolute_join_of_absolute h Layout.publicDir
  have hexists : (p.startedIn cwd).tree.pathExists cwd (Path.join (p.pathTo Layout.publicDir) name) =
      p.tree.pathExists p.cwd (Path.join (p.pathTo Layout.publicDir) name) :=
    pathExists_of_absolute (Path.isAbsolute_join_of_absolute hpublic name)
  rw [markEntry, markEntry, ← hexists]
  rfl

theorem work_startedIn (excludes : List String) (phase : Phase) (g : UsageGraph) :
    work ⟨p.startedIn cwd, excludes⟩ phase g = work ⟨p, excludes⟩ phase g := by
  cases phase with
  | routes => simp only [work, routeVisits_eq, visitAll_startedIn h]
  | controllers =>
    simp only [work, controllerVisits_eq, listingEvents_startedIn h, visitAll_startedIn h]
  | templates =>
    simp only [work, templateVisits_eq, listingEvents_startedIn h, visitAll_startedIn h]
  | assets =>
    simp only [work]
    exact List.foldl_ext _ _ _ fun b name _ => markEntry_startedIn h b name
  | enumeration => simp only [work, candidates_startedIn h, candidateEvents_startedIn h]

theorem run_startedIn (excludes : List String) (g : UsageGraph) :
    run ⟨p.startedIn cwd, excludes⟩ g = run ⟨p, excludes⟩ g :=
  List.foldl_ext _ _ _ fun before phase _ => by
    simp only [Findings.andRun, runPhase, work_startedIn h]

end Survey

namespace Project

theorem analyze_startedIn (h : Path.isAbsolute p.root = true) (cwd : Location) (s : Settings) :
    (p.startedIn cwd).analyze s = p.analyze s := by
  have hfolder : (p.startedIn cwd).tree.isFolder cwd p.root = p.tree.isFolder p.cwd p.root :=
    isFolder_of_absolute h
  have htrace : (p.startedIn cwd).trace s = p.trace s := by
    rw [trace, trace, ← hfolder]
    exact if_congr Iff.rfl (congrArg Except.ok (Survey.run_startedIn h _ _)) rfl
  rw [analyze, analyze, htrace]
  rfl

end Project

theorem Config.load_startedIn (h : Path.isAbsolute p.root = true) (cwd : Location) :
    load (p.startedIn cwd) = load p := by
  have hpath := Path.isAbsolute_join_of_absolute h fileName
  have hexists : (p.startedIn cwd).tree.pathExists (p.startedIn cwd).cwd
      ((p.startedIn cwd).pathTo fileName) = p.tree.pathExists p.cwd (p.pathTo fileName) :=
    pathExists_of_absolute hpath
  have htext : (p.startedIn cwd).readText ((p.startedIn cwd).pathTo fileName) =
      p.readText (p.pathTo fileName) := readText_of_absolute hpath
  simp only [load, hexists, htext]
  rfl

end UnusedAssets
