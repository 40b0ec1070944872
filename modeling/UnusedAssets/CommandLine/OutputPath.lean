import UnusedAssets.Path

/-!
# Output paths

A file is only written below the working directory: its path may be neither absolute nor lead upwards.
Where backslashes separate its parts, all but the last of them are looked at.
-/

namespace UnusedAssets.CommandLine

open Text

inductive OutputFault where
  | nulByte
  | absolute (path : String)
  | upwards (path : String)
  | disguised (path : String)
  deriving DecidableEq, Repr

def OutputFault.message : OutputFault → String
  | .nulByte => "Output path contains null bytes"
  | .absolute path => "Output path must be relative, not absolute: " ++ path
  | .upwards path => "Path traversal (..) not allowed in output paths: " ++ path
  | .disguised path => "Path traversal attempt detected: " ++ path

/-- Nothing is wrong with the path, or the first of the faults that it has. -/
def checkOutput (path : String) : Except OutputFault Unit :=
  let slashed := substitute path '\\' "/"
  if '\x00' ∈ path.toList then .error .nulByte
  else if Path.isAbsolute path then .error (.absolute path)
  else if encode ".." ∈ Path.components path then .error (.upwards path)
  else if mentions slashed "/../" || startsWith slashed "../" then .error (.disguised path)
  else .ok ()

end UnusedAssets.CommandLine
