import UnusedAssets.FileTree.Basic

/-!
# Changes of a file tree

Which files came about or got another content between two states of a tree.
-/

namespace UnusedAssets.FileTree

open Text

def holds (t : FileTree) (l : Location) (content : Bytes) : Bool :=
  match t.lookup? l with
  | some (.file c _) => decide (c = content)
  | _ => false

/-- The files of the later tree that are new or have another content, and whether they may be run. -/
def changedFiles (before after : FileTree) : List (Location × Bytes × Bool) :=
  after.entries.toList.filterMap fun e =>
    match e.2 with
    | .file content executable =>
      if before.holds e.1 content then none else some (e.1, content, executable)
    | _ => none

end UnusedAssets.FileTree
