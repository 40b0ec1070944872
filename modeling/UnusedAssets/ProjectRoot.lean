import UnusedAssets.FileTree.Access

/-!
# Project roots

The root of a project is the nearest folder, from a given path upwards, with one of the files that
mark a root. Where no folder is marked, the path stands for itself.
-/

namespace UnusedAssets

open Text

namespace FileTree

def rootMarkers : List String := ["artisan", "composer.json"]

def isProjectRoot (t : FileTree) (cwd : Location) (dir : Bytes) : Bool :=
  rootMarkers.any fun name => t.isFile cwd (Path.join dir (encode name))

def nearestRoot? (t : FileTree) (l : Location) : Option Location :=
  if t.isProjectRoot [] (Location.path l) then some l
  else if l = [] then none
  else t.nearestRoot? l.dropLast
termination_by l.length
decreasing_by
  rw [List.length_dropLast]
  have : 0 < l.length := List.length_pos_iff.mpr ‹_›
  omega

/-- The root of the project that a path lies in; none if the path leads nowhere. -/
def projectRoot? (t : FileTree) (cwd : Location) (path : Bytes) : Option Location :=
  match t.locate cwd path with
  | .error _ => none
  | .ok l => some ((t.nearestRoot? l).getD l)

end FileTree

end UnusedAssets
