import UnusedAssets.Phase
import UnusedAssets.Removal.Command
import UnusedAssets.Tracking

/-!
# Analyses

An analysis surveys a project from an empty graph and divides the unused candidates into those to
report and those that an ignore pattern leaves out.
-/

namespace UnusedAssets

open Text

structure Settings where
  /-- More beginnings of paths that are no candidates. -/
  excludes : List String := []
  /-- The patterns of files not to report. -/
  ignores : List String := []
  deriving DecidableEq, Repr

def Settings.append (a b : Settings) : Settings :=
  ⟨a.excludes ++ b.excludes, a.ignores ++ b.ignores⟩

instance : Append Settings := ⟨Settings.append⟩

/-- Whether an ignore pattern covers a path: with a star at its end, as a beginning; with a star at
its beginning, as an end; else if it occurs in the path. -/
def isIgnoredBy (pattern path : String) : Bool :=
  match dropTail? pattern "*" with
  | some lead => startsWith path lead
  | none =>
    match dropLead? pattern "*" with
    | some tail => endsWith path tail
    | none => path == pattern || mentions path pattern

def Settings.isIgnored (s : Settings) (path : String) : Bool :=
  s.ignores.any fun pattern => isIgnoredBy pattern path

structure Analysis where
  root : String
  totalCandidates : Nat
  usedCount : Nat
  /-- The unused candidates to report, ascending. -/
  unused : List String
  /-- The unused candidates left out, ascending. -/
  ignored : List String
  phases : List PhaseStats
  graph : UsageGraph

namespace Analysis

def hasUnused (a : Analysis) : Bool := !a.unused.isEmpty

def percentage (unused total : Nat) : Float :=
  if total = 0 then 0
  else unused.toUInt64.toFloat / total.toUInt64.toFloat * 100

def unusedPercentage (a : Analysis) : Float := percentage a.unused.length a.totalCandidates

def removalCommands (a : Analysis) (reply : ListingReply) : List RemovalCommand :=
  RemovalCommand.all a.unused reply.tracked

def completeEvent (a : Analysis) : Event :=
  ⟨.info, "deadasset_core::builder", some "analysis complete",
    [("root", .text a.root), ("candidates", .count a.graph.candidates.size),
      ("used", .count a.graph.used.size), ("unused", .count a.unused.length),
      ("ignored", .count a.ignored.length), ("unresolved", .count a.graph.unresolved.size)]⟩

end Analysis

namespace Project

def survey (p : Project) (s : Settings) : Survey := ⟨p, Candidate.excludesWith s.excludes⟩

/-- What a survey of the project finds, from an empty graph. -/
def trace (p : Project) (s : Settings) : Except Failure Survey.Findings :=
  if p.tree.isFolder p.cwd p.root then .ok ((p.survey s).run ∅)
  else .error (.invalidArgument ("project root is not a directory: " ++ p.rootText))

/-- The result of an analysis, and what it reported on the side. -/
def analyze (p : Project) (s : Settings) : Except Failure (Analysis × List Event) :=
  match p.trace s with
  | .error f => .error f
  | .ok found =>
    let a : Analysis := {
      root := p.rootText
      totalCandidates := found.graph.candidates.size
      usedCount := found.graph.used.size
      unused := found.graph.unused.filter fun path => !s.isIgnored path
      ignored := found.graph.unused.filter s.isIgnored
      phases := found.stats
      graph := found.graph }
    .ok (a, found.events ++ [a.completeEvent])

end Project

end UnusedAssets
