import UnusedAssets.FileTree.Basic
import UnusedAssets.FileTree.Fault

/-!
# Path resolution

A path is walked from a folder, step by step. A link on the way is replaced by the steps of its
target; at most `linkLimit` links are followed, which bounds the walk. To open a file for writing,
the last step need not exist.
-/

namespace UnusedAssets.FileTree

open Text

/-- How many links one path may lead through. -/
def linkLimit : Nat := 40

/-- The steps of a path. A slash at the end asks for a folder, as `.` does. -/
def steps (path : Bytes) : List Bytes :=
  Path.parts path ++ if Path.endsInSlash path then [encode "."] else []

/-- Where the walk of a path begins that is read in the folder `here`. -/
def origin (here : Location) (path : Bytes) : Location :=
  if Path.isAbsolute path then [] else here

def follow (t : FileTree) (links : Nat) (here : Location) (todo : List Bytes) :
    Except FileFault Location :=
  match todo with
  | [] => .ok here
  | step :: rest =>
    if !t.isFolderAt here then .error .notFolder
    else if step = "." then t.follow links here rest
    else if step = ".." then t.follow links here.dropLast rest
    else if nameLimit < step.length then .error .nameTooLong
    else
      match t.lookup? (here ++ [step]), links with
      | none, _ => .error .notFound
      | some (.link _), 0 => .error .tooManyLinks
      | some (.link target), links + 1 =>
        t.follow links (origin here target) (steps target ++ rest)
      | some _, links => t.follow links (here ++ [step]) rest
termination_by (links, todo.length)

/-- The location that is written to when a file is opened at the end of some steps; `slash` says
whether a slash follows the last of them. -/
def followToWrite (t : FileTree) (links : Nat) (here : Location) (todo : List Bytes)
    (slash : Bool) : Except FileFault Location :=
  match todo with
  | [] => .error .isFolder
  | step :: rest =>
    if !t.isFolderAt here then .error .notFolder
    else if rest.isEmpty && (slash || step = "." || step = "..") then .error .isFolder
    else if step = "." then t.followToWrite links here rest slash
    else if step = ".." then t.followToWrite links here.dropLast rest slash
    else if nameLimit < step.length then .error .nameTooLong
    else
      match t.lookup? (here ++ [step]), links with
      | none, _ => if rest.isEmpty then .ok (here ++ [step]) else .error .notFound
      | some (.link _), 0 => .error .tooManyLinks
      | some (.link target), links + 1 =>
        if rest.isEmpty then
          t.followToWrite links (origin here target) (Path.parts target)
            (Path.endsInSlash target)
        else t.followToWrite links (origin here target) (steps target ++ rest) slash
      | some (.file ..), links =>
        if rest.isEmpty then .ok (here ++ [step])
        else t.followToWrite links (here ++ [step]) rest slash
      | some .folder, links =>
        if rest.isEmpty then .error .isFolder
        else t.followToWrite links (here ++ [step]) rest slash
termination_by (links, todo.length)

/-- Why bytes cannot be a path of any length. -/
def shapeFault? (path : Bytes) : Option FileFault :=
  if 0 ∈ path then some .nulInPath
  else if path = [] then some .notFound
  else none

/-- Why bytes cannot be a path that is handed over. -/
def pathFault? (path : Bytes) : Option FileFault :=
  match shapeFault? path with
  | some fault => some fault
  | none => if pathLimit < path.length then some .nameTooLong else none

/-- The location that a path leads to from the folder `cwd`, all links followed. The path is walked
name by name, so that it may have any length, and each location on the way is handed over. -/
def locate (t : FileTree) (cwd : Location) (path : Bytes) : Except FileFault Location :=
  match shapeFault? path with
  | some fault => .error fault
  | none =>
    match t.follow linkLimit (origin cwd path) (steps path) with
    | .error fault => .error fault
    | .ok l => if pathLimit < (Location.path l).length then .error .nameTooLong else .ok l

/-- The location that a path leads to, which is handed over as a whole. -/
def resolve (t : FileTree) (cwd : Location) (path : Bytes) : Except FileFault Location :=
  match pathFault? path with
  | some fault => .error fault
  | none => t.follow linkLimit (origin cwd path) (steps path)

/-- The location that is written to when `path` is opened for writing. -/
def resolveToWrite (t : FileTree) (cwd : Location) (path : Bytes) : Except FileFault Location :=
  match pathFault? path with
  | some fault => .error fault
  | none =>
    t.followToWrite linkLimit (origin cwd path) (Path.parts path) (Path.endsInSlash path)

end UnusedAssets.FileTree
