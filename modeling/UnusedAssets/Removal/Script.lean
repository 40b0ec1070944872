import UnusedAssets.Event.Basic
import UnusedAssets.Failure
import UnusedAssets.FileTree.Access
import UnusedAssets.Removal.Command
import UnusedAssets.Timestamp

/-!
# Removal scripts

A shell script that enters the project and runs the removal commands one after the other. It is
written as a file that may be run, and never run here.
-/

namespace UnusedAssets

namespace RemovalScript

/-- The file name of the script unless another is chosen. -/
def defaultName : String := "remove_unused_files.sh"

def stampLine (t : Timestamp) : String := "# Generated by deadasset at " ++ t.text ++ "\n"

def header (made : Option Timestamp) : String :=
  "#!/bin/bash\n# Script to remove unused files\n# WARNING: review before running!\n" ++
    (match made with
      | none => ""
      | some t => stampLine t)

def text (root : String) (commands : List RemovalCommand) (made : Option Timestamp) : String :=
  header made ++ "\n" ++
    "cd " ++ shellQuoted root ++ " || exit 1\n" ++ "\n" ++
    "echo 'Removing " ++ toString commands.length ++ " unused files...'\n" ++ "\n" ++
    String.join (commands.map fun c => c.text ++ "\n") ++ "\n" ++
    "echo 'Removal complete!'\n"

def writtenEvent (path contents : String) : Event :=
  ⟨.info, "deadasset_core::script", some "removal script written",
    [("path", .text path), ("bytes", .count contents.utf8ByteSize)]⟩

/-- The tree in which the file at `path` holds a script and may be run. -/
def write (t : FileTree) (cwd : Location) (path contents : String) : Except Failure FileTree :=
  match t.writeText cwd path contents with
  | .error fault => .error (.script path fault.message)
  | .ok t =>
    match t.allowRun cwd path with
    | .error fault => .error (.script path fault.message)
    | .ok t => .ok t

end RemovalScript

end UnusedAssets
