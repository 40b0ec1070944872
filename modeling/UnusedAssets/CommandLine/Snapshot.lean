import UnusedAssets.CommandLine.Run
import UnusedAssets.FileTree.Change
import UnusedAssets.Text.Hex

/-!
# Snapshots

The surroundings of a run as lines of text, and the files that a run changed as such lines. A line is
a keyword and its fields, tabs between them; paths are absolute, and contents are in base sixteen.
-/

namespace UnusedAssets.CommandLine

open Text

namespace Snapshot

/-- The surroundings of which nothing is known: a tree without entries, and no program that lists
tracked files. -/
def blank : Surroundings := ⟨∅, [], .missing, none, ⟨0, 0⟩⟩

def content? (field : String) : Option Bytes := Hex.decode? field.toList

def described? : List String → Option Entry
  | ["folder"] => some .folder
  | ["link", target] => some (.link target)
  | ["file", content] => (content? content).map fun bytes => .file bytes false
  | ["program", content] => (content? content).map fun bytes => .file bytes true
  | _ => none

/-- What one line adds to the surroundings; none if it is no line of a snapshot. -/
def addLine (w : Surroundings) (line : String) : Option Surroundings :=
  match split line '\t' with
  | [""] => some w
  | ["cwd", path] => some { w with cwd := Path.parts path }
  | ["time", seconds] => seconds.toInt?.map fun n => { w with now := ⟨n, 0⟩ }
  | ["filter", text] => some { w with logFilter := some text }
  | ["tracked", status, output, errors] =>
    match status.toNat?, content? output, content? errors with
    | some n, some out, some err => some { w with reply := .finished n out err }
    | _, _, _ => none
  | keyword :: path :: fields =>
    (described? (keyword :: fields)).map fun e =>
      { w with tree := w.tree.plant [] e (Path.parts path) }
  | _ => none

def read? (lines : List String) : Option Surroundings := lines.foldlM addLine blank

def fileLine (l : Location) (content : Bytes) (executable : Bool) : String :=
  joinWith "\t" [if executable then "program" else "file", decodeLenient (Location.path l),
    String.ofList (Hex.encode content)]

def changes (w : Surroundings) (r : Outcome) : List String :=
  (w.tree.changedFiles r.tree).map fun (l, content, executable) => fileLine l content executable

end Snapshot

end UnusedAssets.CommandLine
