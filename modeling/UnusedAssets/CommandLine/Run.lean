import UnusedAssets.CommandLine.Options
import UnusedAssets.CommandLine.OutputPath
import UnusedAssets.Config
import UnusedAssets.Event.Filter
import UnusedAssets.Event.Line
import UnusedAssets.ProjectRoot
import UnusedAssets.Removal.Script
import UnusedAssets.Report.Basic
import UnusedAssets.UsageGraph.Diagram

/-!
# Runs of the command line

A run takes the surroundings and the words of a command line to an exit status, the standard output,
the diagnostics and the file tree after it. It finds the project, reads its configuration, analyzes,
reports, explains a path, writes the removal script and then the diagram, and stops where one of
these fails.
-/

namespace UnusedAssets.CommandLine

open Text

structure Surroundings where
  tree : FileTree
  cwd : Location
  /-- How the request for the tracked files ends. -/
  reply : ListingReply
  /-- The filter for events, if one is set. -/
  logFilter : Option String
  now : Timestamp

inductive Diagnostic where
  | text (s : String)
  | event (e : Event) (json : Bool)
  | usage (fault : UsageFault)
  deriving DecidableEq, Repr

def Diagnostic.write (time : String) : Diagnostic → String
  | .text s => s
  | .event e true => e.json time ++ "\n"
  | .event e false => e.plain time ++ "\n"
  | .usage fault => "error: " ++ fault.message ++ "\n\nFor more information, try '--help'.\n"

structure Outcome where
  exit : Nat := 0
  output : String := ""
  diagnostics : List Diagnostic := []
  tree : FileTree

namespace Outcome

def say (r : Outcome) (s : String) : Outcome := { r with output := r.output ++ s }

def note (r : Outcome) (s : String) : Outcome :=
  { r with diagnostics := r.diagnostics ++ [.text s] }

def report (r : Outcome) (w : Surroundings) (o : Options) (events : List Event) : Outcome :=
  let passing := events.filter (EventFilter.passes (.ofText w.logFilter))
  { r with diagnostics := r.diagnostics ++ passing.map (.event · o.logJson) }

def fail (r : Outcome) (message : String) : Outcome :=
  { r.note ("Error: " ++ message ++ "\n") with exit := 1 }

/-- Ends the run with an error that has a cause, which is indented. -/
def failBecause (r : Outcome) (message cause : String) : Outcome :=
  r.fail (message ++ "\n\nCaused by:\n    " ++ substitute cause '\n' "\n    ")

end Outcome

def versionText : String := "deadasset-cli 0.1.0\n"

def helpText : String :=
  "Unused view and asset detector for Laravel\n\nUsage: deadasset [OPTIONS] [PATH]\n\n" ++
    "Options:\n" ++
    "      --json                 Output results in JSON format\n" ++
    "      --ignore <IGNORE>...   Path patterns to leave out of the report\n" ++
    "      --exclude <EXCLUDE>... Extra path prefixes to exclude\n" ++
    "      --script <FILE>        Removal script file name\n" ++
    "      --no-script            Do not write a removal script\n" ++
    "      --dot                  Generate Graphviz DOT output\n" ++
    "      --dot-file <FILE>      Write DOT output to a file\n" ++
    "      --explain <PATH>       Show which files reference a path\n" ++
    "      --log-json             Emit logs as JSON lines\n" ++
    "  -h, --help                 Print help\n" ++
    "  -V, --version              Print version\n"

/-- Whether a message ends its own line, as those about the form of a document do. -/
def endsLine : Config.LoadFailure → Bool
  | .unreadable .. | .invalid _ (.unknownFormat _) => false
  | .invalid .. => true

def configWarning (f : Config.LoadFailure) : String :=
  "[WARN] config load failed: " ++ f.message ++ (if endsLine f then "\n" else "") ++ "\n"

/-- The configuration of a project; one that is not known counts as empty and gives a warning. -/
def configOf (p : Project) : Config × Option String :=
  match Config.load p with
  | .ok c => (c.getD {}, none)
  | .error f => ({}, some (configWarning f))

/-- The path of the removal script, if one is to be written. -/
def scriptPath (o : Options) (c : Config) : Except OutputFault (Option String) :=
  if o.noScript then .ok none
  else
    let path := (o.script <|> c.scriptName?).getD RemovalScript.defaultName
    (checkOutput path).map fun _ => some path

def explanation (g : UsageGraph) (target : String) : String :=
  let sources := g.referrers target
  if sources.isEmpty then target ++ ": no recorded references\n"
  else target ++ " is referenced by:\n" ++ String.join (sources.map fun s => "  " ++ s ++ "\n")

def savedNote (path : String) : String :=
  "\n" ++ repeated "=" 80 ++ "\nCOMMANDS TO REMOVE UNUSED FILES:\n" ++ repeated "=" 80 ++
    "\n\nCommands saved to: " ++ path ++ "\nTo run: chmod +x " ++ path ++ " && ./" ++ path ++ "\n"

/-- An event of this program itself, without a message. -/
def detailEvent (severity : Severity) (detail : String) : Event :=
  ⟨severity, "deadasset_core::logging", none, [("detail", .text detail)]⟩

/-- Writes the diagram where it is asked for: to a file, or with the report if that is plain text. -/
def drawDiagram (w : Surroundings) (o : Options) (json : Bool) (g : UsageGraph) (r : Outcome) :
    Outcome :=
  match o.dotFile with
  | some path =>
    match checkOutput path with
    | .error fault =>
      { r.report w o [detailEvent .error ("Invalid output path: " ++ fault.message)] with
        exit := 2 }
    | .ok _ =>
      match r.tree.writeText w.cwd path g.diagram with
      | .ok tree => { r with tree }
      | .error fault =>
        r.report w o
          [detailEvent .warn ("DOT write failed to " ++ path ++ ": " ++ fault.message)]
  | none =>
    if o.dot then if json then r.note (g.diagram ++ "\n") else r.say (g.diagram ++ "\n")
    else r

def present (w : Surroundings) (o : Options) (json : Bool) (a : Analysis)
    (commands : List RemovalCommand) (r : Outcome) : Outcome :=
  let r := r.report w o w.reply.events
  let r :=
    if json then r.say ((Report.document a commands).pretty ++ "\n")
    else r.say ("\n" ++ Report.plain a.unused)
  match o.explain with
  | none => r
  | some target => r.note (explanation a.graph target)

/-- Writes the removal script, and then the diagram. -/
def writeFiles (w : Surroundings) (o : Options) (json : Bool) (script : Option String)
    (a : Analysis) (commands : List RemovalCommand) (r : Outcome) : Outcome :=
  match script with
  | none => drawDiagram w o json a.graph r
  | some path =>
    let contents := RemovalScript.text a.root commands (some w.now)
    match RemovalScript.write r.tree w.cwd path contents with
    | .error f => r.fail f.message
    | .ok tree =>
      let r := { r with tree }.report w o [RemovalScript.writtenEvent path contents]
      let r :=
        if json then r.note ("Commands saved to: " ++ path ++ "\n") else r.say (savedNote path)
      drawDiagram w o json a.graph r

def run (w : Surroundings) (o : Options) : Outcome :=
  let start : Outcome := { tree := w.tree }
  let path := o.path.getD "."
  match w.tree.projectRoot? w.cwd path with
  | none => start.fail ("Failed to find project root from: " ++ path)
  | some location =>
    let p : Project := ⟨w.tree, w.cwd, Location.path location⟩
    let (config, warning) := configOf p
    let start := warning.elim start start.note
    let json := o.json || config.wantsJson
    match scriptPath o config with
    | .error fault => start.fail fault.message
    | .ok script =>
      let start :=
        if json then start else start.say ("Analyzing used files in " ++ p.rootText ++ " ...\n")
      match p.analyze (config.settings ++ ⟨o.exclude, o.ignore⟩) with
      | .error f => start.failBecause ("Failed to analyze project: " ++ p.rootText) f.message
      | .ok (a, events) =>
        let commands := a.removalCommands w.reply
        let presented := present w o json a commands (start.report w o events)
        writeFiles w o json script a commands presented

def execute (w : Surroundings) (words : List String) : Outcome :=
  match request words with
  | .error fault => { exit := 2, diagnostics := [.usage fault], tree := w.tree }
  | .ok .version => { output := versionText, tree := w.tree }
  | .ok .help => { output := helpText, tree := w.tree }
  | .ok (.run o) => run w o

end UnusedAssets.CommandLine
