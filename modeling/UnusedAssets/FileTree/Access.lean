import UnusedAssets.FileTree.Resolve

/-!
# Reading and writing by path

What programs ask of a file tree: whether a path leads anywhere, the text of a file, and a tree in
which a file has a new text. Links are followed throughout.
-/

namespace UnusedAssets.FileTree

open Text

def entryAt (t : FileTree) (cwd : Location) (path : Bytes) : Except FileFault Entry :=
  match t.resolve cwd path with
  | .error fault => .error fault
  | .ok l =>
    match t.lookup? l with
    | none => .error .notFound
    | some e => .ok e

def pathExists (t : FileTree) (cwd : Location) (path : Bytes) : Bool :=
  (t.entryAt cwd path).isOk

def isFile (t : FileTree) (cwd : Location) (path : Bytes) : Bool :=
  match t.entryAt cwd path with
  | .ok (.file ..) => true
  | _ => false

def isFolder (t : FileTree) (cwd : Location) (path : Bytes) : Bool :=
  match t.entryAt cwd path with
  | .ok .folder => true
  | _ => false

def readText (t : FileTree) (cwd : Location) (path : Bytes) : Except FileFault String :=
  match t.entryAt cwd path with
  | .error fault => .error fault
  | .ok (.file content _) =>
    match decode? content with
    | none => .error .notText
    | some text => .ok text
  | .ok _ => .error .isFolder

def isExecutableAt (t : FileTree) (l : Location) : Bool :=
  match t.lookup? l with
  | some (.file _ executable) => executable
  | _ => false

/-- The tree in which the file at `path` holds `text`. A new file may not be run. -/
def writeText (t : FileTree) (cwd : Location) (path : Bytes) (text : String) :
    Except FileFault FileTree :=
  match t.resolveToWrite cwd path with
  | .error fault => .error fault
  | .ok l =>
    match t.put? l (.file (encode text) (t.isExecutableAt l)) with
    | none => .error .nameTooLong
    | some t => .ok t

def allowRun (t : FileTree) (cwd : Location) (path : Bytes) : Except FileFault FileTree :=
  match t.resolve cwd path with
  | .error fault => .error fault
  | .ok l =>
    match t.lookup? l with
    | some (.file content _) =>
      match t.put? l (.file content true) with
      | none => .error .nameTooLong
      | some t => .ok t
    | _ => .ok t

/-- The tree with `e` under a name. Where a link stands, a file is written to what it leads to, and
nothing else changes. -/
def place (t : FileTree) (here : Location) (e : Entry) (name : Bytes) : FileTree :=
  match t.lookup? (here ++ [name]), e with
  | some (.link _), .file .. =>
    match t.followToWrite linkLimit here [name] false with
    | .error _ => t
    | .ok l => (t.put? l e).getD t
  | some (.link _), _ => t
  | _, _ => (t.put? (here ++ [name]) e).getD t

/-- The tree with `e` at the end of some names, missing folders on the way made, links on the way
followed. Nothing changes if a file is in the way. -/
def plant (t : FileTree) (here : Location) (e : Entry) : List Bytes → FileTree
  | [] => t
  | [name] => t.place here e name
  | name :: next :: rest =>
    if name = ".." then t.plant here.dropLast e (next :: rest)
    else
      match t.lookup? (here ++ [name]) with
      | none =>
        match t.put? (here ++ [name]) .folder with
        | none => t
        | some t => t.plant (here ++ [name]) e (next :: rest)
      | some .folder => t.plant (here ++ [name]) e (next :: rest)
      | some (.file ..) => t
      | some (.link _) =>
        match t.follow linkLimit here [name] with
        | .error _ => t
        | .ok l => t.plant l e (next :: rest)

end UnusedAssets.FileTree
