import UnusedAssets.FileTree.Access

/-!
# Listings

The files below a folder, in the order of a walk that takes the entries of each folder by name. Links
to files count as files; links to folders are not entered, but the folder in which a listing starts
may be reached by a link. A folder whose path is too long to be handed over stays unopened.
-/

namespace UnusedAssets

open Text

namespace FileTree

def entriesBelow (t : FileTree) (cwd : Location) (dir : Bytes) : List (Location × Entry) :=
  match t.resolve cwd dir with
  | .error _ => []
  | .ok l => if t.isFolderAt l then t.below l else []

def pathBelow (dir : Bytes) (names : List Bytes) : Bytes := names.foldl Path.join dir

/-- Whether an entry at a path is a file or a link to a file. -/
def countsAsFile (t : FileTree) (cwd : Location) (path : Bytes) : Entry → Bool
  | .file .. => true
  | .link _ => t.isFile cwd path
  | .folder => false

/-- Whether the folder in which an entry stands can be opened by its path. -/
def isListed (dir : Bytes) (names : List Bytes) : Bool :=
  (pathBelow dir names.dropLast).length ≤ pathLimit

/-- The names that lead to the folders below a folder that cannot be opened by their paths. What is
below these is not met at all. -/
def unopenedBelow (t : FileTree) (cwd : Location) (dir : Bytes) : List (List Bytes) :=
  ((t.entriesBelow cwd dir).filter fun e =>
    e.2 = .folder && isListed dir e.1 && pathLimit < (pathBelow dir e.1).length).map (·.1)

def filesBelow (t : FileTree) (cwd : Location) (dir : Bytes) : List (List Bytes) :=
  ((t.entriesBelow cwd dir).filter fun e =>
    isListed dir e.1 && t.countsAsFile cwd (pathBelow dir e.1) e.2).map (·.1)

def filesIn (t : FileTree) (cwd : Location) (dir : Bytes) : List Bytes :=
  ((t.filesBelow cwd dir).filter fun names => names.length = 1).map (pathBelow dir)

/-- The paths of the files below a folder whose names, read as texts, end with `tail`. -/
def filesWithSuffix (t : FileTree) (cwd : Location) (dir : Bytes) (tail : String) : List Bytes :=
  ((t.filesBelow cwd dir).filter fun names =>
    endsWith (decodeLenient (names.getLast?.getD [])) tail).map (pathBelow dir)

end FileTree

end UnusedAssets
