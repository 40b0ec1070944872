import UnusedAssets.OrderedSet
import UnusedAssets.Text.Fields

/-!
# Removal commands

One shell command for each unused file. A path is written between single quotes; a single quote
inside it ends the quotes, stands between double quotes, and begins them again.
-/

namespace UnusedAssets

open Text

def shellQuoted (s : String) : String := "'" ++ substitute s '\'' "'\"'\"'" ++ "'"

structure RemovalCommand where
  path : String
  /-- Whether the file is under version control. -/
  tracked : Bool
  deriving DecidableEq, Repr

namespace RemovalCommand

def text (c : RemovalCommand) : String :=
  (if c.tracked then "git rm -f " else "rm ") ++ shellQuoted c.path

/-- The commands for some files, ascending, one for each path. -/
def all (unused : List String) (tracked : OrderedSet String) : List RemovalCommand :=
  (OrderedSet.ofList unused).toList.map fun path => ⟨path, tracked.contains path⟩

end RemovalCommand

end UnusedAssets
