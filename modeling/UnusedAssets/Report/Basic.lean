import UnusedAssets.Analysis
import UnusedAssets.Report.Json
import UnusedAssets.Text.Sorted

/-!
# Reports

The unused files of an analysis, grouped by extension, as plain text or as a JSON document.
-/

namespace UnusedAssets

open Text

namespace Report

/-- The groups with one more path, put in its place in the group of its extension. -/
def addPath (groups : OrderedMap String (List String)) (path : String) :
    OrderedMap String (List String) :=
  let ext := Path.extension path
  groups.put ext ((groups.get? ext).getD [] ++ [path])

/-- The paths by extension. Extensions and the paths of each are ascending; repetitions are kept. -/
def byExtension (paths : List String) : OrderedMap String (List String) :=
  (sorted paths).foldl addPath ∅

def groupText (group : String × List String) : String :=
  let label := if group.1 = "" then "(no extension)" else group.1
  "\n" ++ label ++ " files (" ++ toString group.2.length ++ "):\n" ++
    String.join (group.2.map fun path => "  " ++ path ++ "\n")

def plain (unused : List String) : String :=
  if unused.isEmpty then "No unused files found.\n"
  else
    "Found " ++ toString unused.length ++ " unused files:\n" ++ repeated "-" 80 ++ "\n" ++
      String.join ((byExtension unused).toList.map groupText)

def document (a : Analysis) (commands : List RemovalCommand) : Json :=
  .object [
    ("commands", .array (commands.map fun c => .text c.text)),
    ("root", .text a.root),
    ("total_candidates", .count a.totalCandidates),
    ("unused_by_extension", .object ((byExtension a.unused).toList.map fun g =>
      (g.1, .array (g.2.map .text)))),
    ("unused_count", .count a.unused.length),
    ("used", .count a.usedCount)]

end Report

end UnusedAssets
