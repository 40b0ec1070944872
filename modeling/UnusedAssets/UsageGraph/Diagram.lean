import UnusedAssets.UsageGraph.Digraph

/-!
# Diagrams

A usage graph in the DOT language: every node with the colour of its state, then every arrow. Node
names are quoted, with a backslash before a quote or a backslash.
-/

namespace UnusedAssets

open Text

namespace Diagram

def quoted (name : String) : String :=
  "\"" ++ substitute (substitute name '\\' "\\\\") '"' "\\\"" ++ "\""

/-- Unused candidates are red, used ones green, all else grey. -/
def colour (g : UsageGraph) (node : String) : String :=
  if !g.isCandidate node then "lightgray"
  else if g.isUsed node then "lightgreen"
  else "lightcoral"

def nodeLine (g : UsageGraph) (node : String) : String :=
  "  " ++ quoted node ++ " [fillcolor=" ++ colour g node ++ "];\n"

def arrowLine (a : Arrow) : String :=
  "  " ++ quoted a.source ++ " -> " ++ quoted a.target ++ ";\n"

def opening : String :=
  "digraph deadasset \x7b\n  rankdir=LR;\n" ++
    "  node [shape=box, style=filled, fontname=\"JetBrains Mono\"];\n\n"

/-- The nodes of the diagram: all that occurs in the graph of references, and all candidates. -/
def nodes (g : UsageGraph) : OrderedSet String :=
  .ofList (g.digraph.nodes.toList ++ g.candidates.toList)

end Diagram

open Diagram in
def UsageGraph.diagram (g : UsageGraph) : String :=
  opening ++ String.join ((nodes g).toList.map (nodeLine g)) ++ "\n" ++
    String.join (g.digraph.arrows.toList.map arrowLine) ++ "\x7d\n"

end UnusedAssets
