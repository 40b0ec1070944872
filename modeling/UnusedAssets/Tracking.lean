import UnusedAssets.Event.Basic
import UnusedAssets.Failure
import UnusedAssets.OrderedSet
import UnusedAssets.Text.Blank
import UnusedAssets.Text.Fields
import UnusedAssets.Text.Utf8

/-!
# Tracked files

Which files are under version control, as told by a listing with a zero character after each path.
If the listing fails in any way, no file counts as tracked.
-/

namespace UnusedAssets

open Text

inductive ListingReply where
  /-- The program that lists could not be started. -/
  | missing
  | finished (status : Nat) (output errors : Bytes)

namespace ListingReply

def paths (output : String) : OrderedSet String :=
  .ofList ((split output '\x00').filter (· ≠ ""))

/-- The tracked files, or why they are not known. -/
def tracked? : ListingReply → Except Failure (OrderedSet String)
  | .missing => .error (.vcs ("failed to run git: " ++ FileFault.notFound.message))
  | .finished status output errors =>
    if status = 0 then .ok (paths (decodeLenient output))
    else
      .error (.vcs ("git ls-files exited with exit status: " ++ toString status ++ ": " ++
        trim (decodeLenient errors)))

/-- The tracked files; none if they are not known. -/
def tracked (reply : ListingReply) : OrderedSet String :=
  match reply.tracked? with
  | .ok paths => paths
  | .error _ => ∅

def events (reply : ListingReply) : List Event :=
  match reply.tracked? with
  | .ok _ => []
  | .error f =>
    [⟨.debug, "deadasset_core::vcs", some "treating all files as untracked",
      [("error", .text f.message)]⟩]

end ListingReply

end UnusedAssets
