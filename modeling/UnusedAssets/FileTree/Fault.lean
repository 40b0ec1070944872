/-!
# File faults

Why a path cannot be used, in the words of the operating system. A file tree has no permissions and
room for every file, so a fault is a matter of the tree and the path alone.
-/

namespace UnusedAssets

inductive FileFault where
  | notFound
  | notFolder
  | isFolder
  | tooManyLinks
  | nameTooLong
  /-- A path with a character of code zero. -/
  | nulInPath
  /-- A file whose bytes spell no text. -/
  | notText
  deriving DecidableEq, Repr

def FileFault.message : FileFault → String
  | .notFound => "No such file or directory (os error 2)"
  | .notFolder => "Not a directory (os error 20)"
  | .isFolder => "Is a directory (os error 21)"
  | .tooManyLinks => "Too many levels of symbolic links (os error 40)"
  | .nameTooLong => "File name too long (os error 36)"
  | .nulInPath => "file name contained an unexpected NUL byte"
  | .notText => "stream did not contain valid UTF-8"

end UnusedAssets
