import UnusedAssets.FileTree.Access

/-!
# Projects

A project is a folder of a file tree, named by a path that is read in a working directory.
-/

namespace UnusedAssets

open Text

structure Project where
  tree : FileTree
  /-- The folder in which relative paths are read. -/
  cwd : Location
  /-- The path of the project's folder. -/
  root : Bytes

namespace Project

def rootText (p : Project) : String := decodeLenient p.root

def pathTo (p : Project) (relative : Bytes) : Bytes := Path.join p.root relative

/-- What a path is called in the project. -/
def nameOf? (p : Project) (path : Bytes) : Option String := Path.relativeTo? p.root path

def readText (p : Project) (path : Bytes) : Except FileFault String := p.tree.readText p.cwd path

end Project

end UnusedAssets
