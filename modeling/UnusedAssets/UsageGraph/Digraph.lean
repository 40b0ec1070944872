import UnusedAssets.UsageGraph.Basic

/-!
# The graph of references

The references of a usage graph as arrows from source to target.
-/

namespace UnusedAssets

open Std

structure Arrow where
  source : String
  target : String
  deriving DecidableEq, Repr

instance : Ord Arrow := ⟨compareLex (compareOn Arrow.source) (compareOn Arrow.target)⟩

instance : TransOrd Arrow :=
  inferInstanceAs (TransCmp (compareLex (compareOn Arrow.source) (compareOn Arrow.target)))

instance : LawfulEqOrd Arrow where
  eq_of_compare {a b} h := by
    obtain ⟨hs, ht⟩ := compareLex_eq_eq.mp h
    cases a; cases b
    simp only [compareOn] at hs ht
    rw [Arrow.mk.injEq]
    exact ⟨LawfulEqOrd.eq_of_compare hs, LawfulEqOrd.eq_of_compare ht⟩

/-- Nodes and arrows, both ascending. -/
structure Digraph where
  nodes : OrderedSet String
  arrows : OrderedSet Arrow

namespace UsageGraph

/-- The nodes are all targets and sources. -/
def digraph (g : UsageGraph) : Digraph where
  nodes := .ofList (g.edges.toList.flatMap fun e => [e.target, e.source])
  arrows := .ofList (g.edges.toList.map fun e => ⟨e.source, e.target⟩)

variable {g : UsageGraph} {a : Arrow} {name : String}

theorem mem_arrows_digraph : a ∈ g.digraph.arrows ↔ ⟨a.target, a.source⟩ ∈ g.edges := by
  simp only [digraph, OrderedSet.mem_ofList, List.mem_map, OrderedSet.mem_toList]
  constructor
  · rintro ⟨e, he, rfl⟩
    exact he
  · exact fun h => ⟨_, h, rfl⟩

theorem mem_nodes_digraph :
    name ∈ g.digraph.nodes ↔ ∃ e ∈ g.edges, e.target = name ∨ e.source = name := by
  simp only [digraph, OrderedSet.mem_ofList, List.mem_flatMap, OrderedSet.mem_toList,
    List.mem_cons, List.not_mem_nil, or_false, eq_comm]

end UsageGraph

end UnusedAssets
