import UnusedAssets.Candidate
import UnusedAssets.Event.Basic
import UnusedAssets.Failure
import UnusedAssets.Rule
import UnusedAssets.UsageGraph.Basic

/-!
# The phases of a survey

A survey of a project visits its files in five phases. Route files are always marked as used and
searched for references. A controller or a view is marked and searched only if the graph, as it is
when the file's turn comes, refers to it; so the order of visits matters. Then the public entry
files are marked, and last the candidates are listed. A file that cannot be read is passed over.
-/

namespace UnusedAssets

open Text

inductive Phase where
  | routes
  | controllers
  | templates
  | assets
  | enumeration
  deriving DecidableEq, Repr

namespace Phase

def label : Phase → String
  | .routes => "routes"
  | .controllers => "controllers"
  | .templates => "templates"
  | .assets => "assets"
  | .enumeration => "enumeration"

def all : List Phase := [.routes, .controllers, .templates, .assets, .enumeration]

end Phase

structure PhaseStats where
  phase : Phase
  visited : Nat := 0
  /-- How many files were marked as used, or listed as candidates. -/
  marked : Nat := 0
  /-- How many files were searched. -/
  analyzed : Nat := 0
  /-- How many files could not be read. -/
  failed : Nat := 0
  deriving DecidableEq, Repr

structure Visit where
  path : Bytes
  /-- What the file is called in the project. -/
  name : String
  kind : SourceKind
  /-- What else the file is known by: the class of a controller, the dotted name of a view. -/
  known : String
  deriving DecidableEq, Repr

def Visit.isMarked (v : Visit) (g : UsageGraph) : Bool :=
  match v.kind with
  | .route => true
  | .handler => g.isEdgeTarget v.name || g.isReferenced v.known
  | .template => g.isEdgeTarget v.name || g.isViewReferenced v.known

/-- A survey: the project, and the beginnings of paths that are no candidates. -/
structure Survey where
  project : Project
  excludes : List String

structure Progress where
  graph : UsageGraph
  stats : PhaseStats
  events : List Event := []

namespace Survey

def routeVisits (p : Project) : List Visit :=
  (p.tree.filesIn p.cwd (p.pathTo Layout.routesDir)).filterMap fun path =>
    (p.nameOf? path).map fun name => ⟨path, name, .route, ""⟩

def controllerVisits (p : Project) : List Visit :=
  (p.tree.filesWithSuffix p.cwd (p.pathTo Layout.controllersDir) Layout.sourceSuffix).filterMap
    fun path => (p.nameOf? path).map fun name => ⟨path, name, .handler, Path.stem path⟩

def templateVisits (p : Project) : List Visit :=
  (p.tree.filesWithSuffix p.cwd (p.pathTo Layout.viewsDir) Layout.viewSuffix).filterMap fun path =>
    match p.nameOf? path with
    | none => none
    | some name => (Layout.viewName? name).map fun view => ⟨path, name, .template, view⟩

def entryFiles : List String := ["index.php", ".htaccess", "robots.txt", "favicon.ico"]

/-- Why a folder could not be opened by its path. -/
def unopenedMessage (path : Bytes) : String :=
  "IO error for operation on " ++ decodeLenient path ++ ": " ++ FileFault.nameTooLong.message

def listingEvents (p : Project) (dir : Bytes) : List Event :=
  (p.tree.unopenedBelow p.cwd dir).map fun names =>
    ⟨.warn, "deadasset_core::scan", some "skipping unreadable entry",
      [("error", .text (unopenedMessage (FileTree.pathBelow dir names))),
        ("dir", .text (decodeLenient dir))]⟩

def candidateEvents (p : Project) (excludes : List String) : List Event :=
  (p.unopened excludes).map fun path =>
    ⟨.warn, "deadasset_core::scan", some "skipping unreadable entry during enumeration",
      [("error", .text (unopenedMessage path))]⟩

def origin : String := "deadasset_core::trace"

def analyzedEvent (source : String) (kind : SourceKind) (references : Nat) : Event :=
  ⟨.debug, origin, some "analyzed",
    [("file", .text source), ("kind", .text kind.label), ("references", .count references)]⟩

def skippedEvent (path : Bytes) (f : Failure) : Event :=
  let file := decodeLenient path
  if f.isRecoverable then
    ⟨.warn, origin, some "failed to analyze file, skipping",
      [("file", .text file), ("error", .text f.message)]⟩
  else
    ⟨.error, origin, some "unexpected analysis failure, skipping",
      [("file", .text file), ("error", .text f.message)]⟩

def phaseEvent (s : PhaseStats) (g : UsageGraph) : Event :=
  ⟨.debug, origin, some "phase complete",
    [("phase", .text s.phase.label), ("visited", .count s.visited), ("marked", .count s.marked),
      ("analyzed", .count s.analyzed), ("failed", .count s.failed),
      ("used", .count g.used.size)]⟩

end Survey

def Project.readSource (p : Project) (path : Bytes) : Except Failure String :=
  match p.readText path with
  | .error fault => .error (.ofFault (decodeLenient path) fault)
  | .ok text => .ok text

/-- Adds the references in a file to a graph, under the name `source`, and counts them. -/
def Project.analyzeFile (p : Project) (path : Bytes) (source : String) (kind : SourceKind)
    (g : UsageGraph) : Except Failure (UsageGraph × Nat) :=
  match p.readSource path with
  | .error f => .error f
  | .ok text =>
    let rs := extract kind text
    .ok (g.applyAll source rs, rs.length)

namespace Survey

def visit (p : Project) (before : Progress) (v : Visit) : Progress :=
  let stats := { before.stats with visited := before.stats.visited + 1 }
  if v.isMarked before.graph then
    let graph := before.graph.markUsed v.name
    let stats := { stats with marked := stats.marked + 1 }
    match p.analyzeFile v.path v.name v.kind graph with
    | .ok (graph, n) =>
      ⟨graph, { stats with analyzed := stats.analyzed + 1 },
        before.events ++ [analyzedEvent v.name v.kind n]⟩
    | .error f =>
      ⟨graph, { stats with failed := stats.failed + 1 },
        before.events ++ [skippedEvent v.path f]⟩
  else { before with stats }

/-- The visits of a phase, one after the other; `events` tells of their listing. -/
def visitAll (p : Project) (phase : Phase) (events : List Event) (visits : List Visit)
    (g : UsageGraph) : Progress :=
  visits.foldl (visit p) ⟨g, { phase }, events⟩

/-- Marks a public entry file if it is there. -/
def markEntry (p : Project) (before : Progress) (name : String) : Progress :=
  let stats := { before.stats with visited := before.stats.visited + 1 }
  if p.tree.pathExists p.cwd (Path.join (p.pathTo Layout.publicDir) name) then
    { before with
      graph := before.graph.markUsed (Layout.publicDir ++ "/" ++ name)
      stats := { stats with marked := stats.marked + 1 } }
  else { before with stats }

def addCandidate (before : Progress) (name : String) : Progress :=
  { before with
    graph := before.graph.addCandidate name
    stats := { before.stats with
      visited := before.stats.visited + 1, marked := before.stats.marked + 1 } }

/-- What a phase does to a graph, before it reports its end. -/
def work (s : Survey) (phase : Phase) (g : UsageGraph) : Progress :=
  let p := s.project
  match phase with
  | .routes => visitAll p phase [] (routeVisits p) g
  | .controllers =>
    visitAll p phase (listingEvents p (p.pathTo Layout.controllersDir)) (controllerVisits p) g
  | .templates =>
    visitAll p phase (listingEvents p (p.pathTo Layout.viewsDir)) (templateVisits p) g
  | .assets => entryFiles.foldl (markEntry p) ⟨g, { phase }, []⟩
  | .enumeration =>
    (p.candidates s.excludes).foldl addCandidate
      ⟨g, { phase }, candidateEvents p s.excludes⟩

def runPhase (s : Survey) (phase : Phase) (g : UsageGraph) : Progress :=
  let done := s.work phase g
  { done with events := done.events ++ [phaseEvent done.stats done.graph] }

structure Findings where
  graph : UsageGraph
  stats : List PhaseStats := []
  events : List Event := []

def Findings.andRun (s : Survey) (before : Findings) (phase : Phase) : Findings :=
  let done := s.runPhase phase before.graph
  ⟨done.graph, before.stats ++ [done.stats], before.events ++ done.events⟩

def run (s : Survey) (g : UsageGraph) : Findings :=
  Phase.all.foldl (Findings.andRun s) { graph := g }

end Survey

end UnusedAssets
