import UnusedAssets.Listing
import UnusedAssets.Project
import UnusedAssets.Text.Sorted

/-!
# Candidates for removal

A file of a project is a candidate if its name has one of the endings of views and assets and its
path has none of the excluded beginnings. A folder whose path, with a slash, is excluded is not
entered at all.
-/

namespace UnusedAssets

open Text

namespace Candidate

def fixedExcludes : List String :=
  ["vendor/", "node_modules/", "storage/", "bootstrap/cache/", ".git/", ".idea/", ".vscode/",
    "public/build/", "public/storage/"]

def suffixes : List String :=
  [".blade.php", ".css", ".js", ".png", ".jpg", ".jpeg", ".gif", ".svg", ".ico", ".webp", ".pdf",
    ".txt"]

/-- Whether a path has the ending of a candidate. Of the PHP files only views have one. -/
def hasName (path : String) : Bool :=
  !(endsWith path ".php" && !endsWith path ".blade.php") && suffixes.any (endsWith path)

def isExcluded (excludes : List String) (path : String) : Bool := excludes.any (startsWith path)

def dropHere : List Char → List Char
  | '.' :: '/' :: cs => dropHere cs
  | cs => cs

/-- An extra exclusion as a beginning of project paths: without leading `./`, then without leading
slashes, and with a slash at its end. Nothing is excluded by a text that is empty then. -/
def normalExclude? (extra : String) : Option String :=
  let trimmed := String.ofList ((dropHere extra.toList).dropWhile (· == '/'))
  if trimmed = "" then none
  else if endsWith trimmed "/" then some trimmed
  else some (trimmed ++ "/")

/-- `all` with one more extra exclusion, unless it is there. -/
def addExclude (all : List String) (extra : String) : List String :=
  match normalExclude? extra with
  | none => all
  | some e => if e ∈ all then all else all ++ [e]

/-- The fixed exclusions, then the extra ones, each once. -/
def excludesWith (extra : List String) : List String := extra.foldl addExclude fixedExcludes

/-- The names that lead to the folders on the way to a file, outermost first. -/
def enclosing (names : List Bytes) : List (List Bytes) :=
  (List.range (names.length - 1)).map fun n => names.take (n + 1)

/-- Whether a walk of the project enters a folder when it comes there. -/
def isEntered (p : Project) (excludes : List String) (folder : List Bytes) : Bool :=
  match p.nameOf? (FileTree.pathBelow p.root folder) with
  | none => true
  | some name => !isExcluded excludes (name ++ "/")

/-- Whether a walk of the project enters every folder on the way to a file. -/
def isReached (p : Project) (excludes : List String) (names : List Bytes) : Bool :=
  (enclosing names).all (isEntered p excludes)

end Candidate

open Candidate in
/-- The paths of the candidates of a project, ascending, one for each file. -/
def Project.candidates (p : Project) (excludes : List String) : List String :=
  sorted <|
    (((p.tree.filesBelow p.cwd p.root).filter (isReached p excludes)).filterMap fun names =>
      p.nameOf? (FileTree.pathBelow p.root names)).filter fun name =>
        !isExcluded excludes name && hasName name

open Candidate in
/-- The paths of the folders that a walk of the project comes to and cannot open. -/
def Project.unopened (p : Project) (excludes : List String) : List Bytes :=
  ((p.tree.unopenedBelow p.cwd p.root).filter fun names =>
    isReached p excludes names && isEntered p excludes names).map (FileTree.pathBelow p.root)

end UnusedAssets
