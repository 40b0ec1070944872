import UnusedAssets.FileTree.Fault

/-!
# Failures

What can go wrong, with the path concerned and the reason. After a recoverable failure an analysis
goes on without the item.
-/

namespace UnusedAssets

inductive Failure where
  /-- A file could not be read or written. -/
  | io (path message : String)
  /-- A file holds no text. -/
  | decode (path message : String)
  | config (path message : String)
  /-- The tracked files are not known. -/
  | vcs (message : String)
  /-- The removal script could not be written. -/
  | script (path message : String)
  | invalidArgument (message : String)
  deriving DecidableEq, Repr

namespace Failure

def message : Failure → String
  | .io path message => "I/O error at " ++ path ++ ": " ++ message
  | .decode path message => "Decode error in " ++ path ++ ": " ++ message
  | .config path message => "Config error at " ++ path ++ ": " ++ message
  | .vcs message => "VCS error: " ++ message
  | .script path message => "Script error at " ++ path ++ ": " ++ message
  | .invalidArgument message => "Invalid argument: " ++ message

def path? : Failure → Option String
  | .io path _ | .decode path _ | .config path _ | .script path _ => some path
  | .vcs _ | .invalidArgument _ => none

def isRecoverable : Failure → Bool
  | .io .. | .decode .. | .vcs _ => true
  | .config .. | .script .. | .invalidArgument _ => false

/-- A file that could not be read; if its bytes are at fault, it is not decoded. -/
def reading (path message : String) (illFormed : Bool) : Failure :=
  if illFormed then .decode path message else .io path message

def ofFault (path : String) (fault : FileFault) : Failure :=
  reading path fault.message (fault = .notText)

end Failure

end UnusedAssets
