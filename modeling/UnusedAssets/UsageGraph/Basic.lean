import UnusedAssets.OrderedSet
import UnusedAssets.Target

/-!
# Usage graph

What is known of the use of files: the candidates for removal, the paths in use, which source refers
to which target, and the names that led nowhere. Everything is kept in ordered sets and only added
to, so a graph is determined by what was added, in whatever order.
-/

namespace UnusedAssets

open Std Text

/-- `source` refers to `target`. -/
structure Edge where
  target : String
  source : String
  deriving DecidableEq, Repr

instance : Ord Edge := ⟨compareLex (compareOn Edge.target) (compareOn Edge.source)⟩

instance : TransOrd Edge :=
  inferInstanceAs (TransCmp (compareLex (compareOn Edge.target) (compareOn Edge.source)))

instance : LawfulEqOrd Edge where
  eq_of_compare {a b} h := by
    obtain ⟨ht, hs⟩ := compareLex_eq_eq.mp h
    cases a; cases b
    simp only [compareOn] at ht hs
    rw [Edge.mk.injEq]
    exact ⟨LawfulEqOrd.eq_of_compare ht, LawfulEqOrd.eq_of_compare hs⟩

structure UsageGraph where
  candidates : OrderedSet String := ∅
  used : OrderedSet String := ∅
  edges : OrderedSet Edge := ∅
  unresolved : OrderedSet String := ∅
  deriving DecidableEq, Inhabited

namespace UsageGraph

def empty : UsageGraph := {}

instance : EmptyCollection UsageGraph := ⟨empty⟩

def addCandidate (path : String) (g : UsageGraph) : UsageGraph :=
  { g with candidates := g.candidates.insert path }

def markUsed (path : String) (g : UsageGraph) : UsageGraph :=
  { g with used := g.used.insert path }

def recordEdge (target source : String) (g : UsageGraph) : UsageGraph :=
  { g with edges := g.edges.insert ⟨target, source⟩ }

def recordUnresolved (name : String) (g : UsageGraph) : UsageGraph :=
  { g with unresolved := g.unresolved.insert name }

/-- Adds a reference found in `source`. A file is recorded and used, a route only recorded. -/
def apply (source : String) (r : Reference) (g : UsageGraph) : UsageGraph :=
  match r.target with
  | .file path => (g.recordEdge path source).markUsed path
  | .route path => g.recordEdge path source
  | .unresolved name => g.recordUnresolved name

/-- Adds the references found in `source`. -/
def applyAll (source : String) (rs : List Reference) (g : UsageGraph) : UsageGraph :=
  rs.foldl (fun g r => g.apply source r) g

def isEdgeTarget (g : UsageGraph) (path : String) : Bool :=
  g.edges.toList.any fun e => e.target == path

/-- Whether `name` is a used path or a target, or occurs in the path of some source. -/
def isReferenced (g : UsageGraph) (name : String) : Bool :=
  g.used.contains name || g.isEdgeTarget name ||
    g.edges.toList.any fun e => mentions e.source name

/-- Whether the view of that dotted name is a target, or the name itself is referenced. -/
def isViewReferenced (g : UsageGraph) (name : String) : Bool :=
  g.isEdgeTarget (Layout.viewPath name) || g.isReferenced name

def isUsed (g : UsageGraph) (path : String) : Bool := g.used.contains path

def isCandidate (g : UsageGraph) (path : String) : Bool := g.candidates.contains path

/-- The sources that refer to `target`, ascending. -/
def referrers (g : UsageGraph) (target : String) : List String :=
  (g.edges.toList.filter fun e => e.target == target).map (·.source)

/-- All targets, ascending. -/
def targets (g : UsageGraph) : OrderedSet String :=
  .ofList (g.edges.toList.map (·.target))

def edgeCount (g : UsageGraph) : Nat := g.edges.size

/-- The candidates that are not used, ascending. -/
def unused (g : UsageGraph) : List String :=
  g.candidates.toList.filter fun path => !g.used.contains path

end UsageGraph

end UnusedAssets
