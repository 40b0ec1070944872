import Mathlib.Algebra.GroupWithZero.Nat
import Mathlib.Data.List.Dedup
import UnusedAssets.OrderedMap
import UnusedAssets.Proofs.Text.ByteOrder
import UnusedAssets.Proofs.UsageGraph.Facts
import UnusedAssets.UsageGraph.Digraph

/-!
# References by target

The references of a usage graph as a map from each target to the sources that refer to it. To record a
reference is to put its source to those of its target (`references_recordEdge`), and the map written
out is the references of the graph in their order (`pairs_references`). So whatever is counted, looked
up or drawn from the map is what the graph gives, and all of it is about the pairs that were recorded
(`references_agree`).
-/

namespace UnusedAssets

open Std Text

abbrev References := OrderedMap String (OrderedSet String)

namespace Digraph

def addNode (d : Digraph) (name : String) : Digraph := { d with nodes := d.nodes.insert name }

/-- An arrow comes with both its ends. -/
def addArrow (d : Digraph) (a : Arrow) : Digraph where
  nodes := (d.nodes.insert a.source).insert a.target
  arrows := d.arrows.insert a

/-- The target as a node, and an arrow to it from each of its sources. -/
def addSources (d : Digraph) (entry : String × OrderedSet String) : Digraph :=
  entry.2.toList.foldl (fun d source => d.addArrow ⟨source, entry.1⟩) (d.addNode entry.1)

end Digraph

namespace References

def record (m : References) (e : Edge) : References :=
  m.put e.target (((m.get? e.target).getD ∅).insert e.source)

/-- The references written out, target by target. -/
def pairs (m : References) : List Edge :=
  m.toList.flatMap fun entry => entry.2.toList.map fun source => ⟨entry.1, source⟩

/-- How many sources the targets have, all together. -/
def count (m : References) : Nat := (m.toList.map fun entry => entry.2.size).sum

/-- The sources that refer to a target; none if it is not there. -/
def referrers (m : References) (target : String) : List String :=
  match m.get? target with
  | none => []
  | some sources => sources.toList

/-- The graph of all targets and sources, put together target by target. -/
def digraph (m : References) : Digraph := m.toList.foldl Digraph.addSources ⟨∅, ∅⟩

end References

namespace Digraph

variable {d : Digraph} {name target : String} {sources : List String} {a : Arrow}
  {entry : String × OrderedSet String} {entries : List (String × OrderedSet String)}

theorem mem_nodes_foldl_addArrow (htarget : target ∈ d.nodes) :
    name ∈ (sources.foldl (fun d source => d.addArrow ⟨source, target⟩) d).nodes ↔
      name ∈ sources ∨ name ∈ d.nodes := by
  induction sources generalizing d with
  | nil => simp
  | cons source sources ih =>
    have hadded {x : String} : x ∈ (d.addArrow ⟨source, target⟩).nodes ↔
        x = source ∨ x ∈ d.nodes := by
      simp only [addArrow, OrderedSet.mem_insert]
      grind
    rw [List.foldl_cons, ih (hadded.mpr (.inr htarget)), hadded, List.mem_cons, or_left_comm,
      or_assoc]

theorem mem_arrows_foldl_addArrow :
    a ∈ (sources.foldl (fun d source => d.addArrow ⟨source, target⟩) d).arrows ↔
      a.target = target ∧ a.source ∈ sources ∨ a ∈ d.arrows := by
  induction sources generalizing d with
  | nil => simp
  | cons source sources ih =>
    have hadded : a ∈ (d.addArrow ⟨source, target⟩).arrows ↔
        a.target = target ∧ a.source = source ∨ a ∈ d.arrows := by
      cases a
      simp [addArrow, OrderedSet.mem_insert, and_comm]
    rw [List.foldl_cons, ih, hadded, List.mem_cons, ← or_assoc, ← and_or_left, or_comm (a := _ ∈ _)]

theorem mem_nodes_foldl_addSources : name ∈ (entries.foldl addSources d).nodes ↔
    (∃ entry ∈ entries, name = entry.1 ∨ name ∈ entry.2) ∨ name ∈ d.nodes := by
  induction entries generalizing d with
  | nil => simp
  | cons entry entries ih =>
    have htarget : entry.1 ∈ (d.addNode entry.1).nodes := OrderedSet.mem_insert.mpr (.inl rfl)
    rw [List.foldl_cons, ih, addSources, mem_nodes_foldl_addArrow htarget, addNode,
      OrderedSet.mem_insert]
    simp only [List.mem_cons, exists_eq_or_imp, OrderedSet.mem_toList]
    grind

theorem mem_arrows_foldl_addSources : a ∈ (entries.foldl addSources d).arrows ↔
    (∃ entry ∈ entries, a.target = entry.1 ∧ a.source ∈ entry.2) ∨ a ∈ d.arrows := by
  induction entries generalizing d with
  | nil => simp
  | cons entry entries ih =>
    rw [List.foldl_cons, ih, addSources, mem_arrows_foldl_addArrow]
    simp only [addNode, List.mem_cons, exists_eq_or_imp, OrderedSet.mem_toList]
    grind

end Digraph

namespace References

variable {m : References} {e : Edge} {a : Arrow} {name : String}

theorem mem_pairs : e ∈ m.pairs ↔ ∃ entry ∈ m.toList, e.target = entry.1 ∧ e.source ∈ entry.2 := by
  cases e
  simp only [pairs, List.mem_flatMap, List.mem_map, OrderedSet.mem_toList, Edge.mk.injEq]
  grind

/-- The number of sources is the number of references. -/
theorem count_eq (m : References) : m.count = m.pairs.length := by
  simp [count, pairs, List.length_flatMap, OrderedSet.size]

theorem mem_arrows_digraph : a ∈ m.digraph.arrows ↔ ⟨a.target, a.source⟩ ∈ m.pairs := by
  rw [digraph, Digraph.mem_arrows_foldl_addSources, mem_pairs, or_iff_left OrderedSet.not_mem_empty]

theorem mem_nodes_digraph :
    name ∈ m.digraph.nodes ↔ ∃ entry ∈ m.toList, name = entry.1 ∨ name ∈ entry.2 := by
  rw [digraph, Digraph.mem_nodes_foldl_addSources, or_iff_left OrderedSet.not_mem_empty]

end References

namespace UsageGraph

variable {g : UsageGraph} {source target name : String} {e : Edge} {a : Arrow}

theorem mem_targets : target ∈ g.targets ↔ ∃ e ∈ g.edges, e.target = target := by
  simp [targets, OrderedSet.mem_ofList]

theorem mem_referrers : source ∈ g.referrers target ↔ ⟨target, source⟩ ∈ g.edges := by
  simp only [referrers, List.mem_map, List.mem_filter, beq_iff_eq, OrderedSet.mem_toList]
  constructor
  · rintro ⟨e, ⟨he, rfl⟩, rfl⟩
    exact he
  · exact fun h => ⟨_, ⟨h, rfl⟩, rfl⟩

theorem ascending_referrers (g : UsageGraph) (target : String) :
    (g.referrers target).Pairwise fun a b => compare a b = .lt := by
  refine List.pairwise_map.mpr ((g.edges.ascending.filter _).imp_of_mem ?_)
  intro e e' he he' hlt
  -- Edges with one target are compared by their sources.
  have htarget : e.target = e'.target :=
    (beq_iff_eq.mp (List.mem_filter.mp he).2).trans (beq_iff_eq.mp (List.mem_filter.mp he').2).symm
  rcases Ordering.then_eq_lt.mp hlt with h | ⟨-, h⟩
  · exact absurd htarget (OrderedSet.ne_of_compare_lt h)
  · exact h

def sourcesOf (g : UsageGraph) (target : String) : OrderedSet String :=
  ⟨g.referrers target, g.ascending_referrers target⟩

def references (g : UsageGraph) : References where
  toList := g.targets.toList.map fun target => (target, g.sourcesOf target)
  ascending := List.pairwise_map.mpr g.targets.ascending

theorem mem_sourcesOf : source ∈ g.sourcesOf target ↔ ⟨target, source⟩ ∈ g.edges := mem_referrers

theorem mem_references {entry : String × OrderedSet String} :
    entry ∈ g.references.toList ↔ entry.1 ∈ g.targets ∧ entry.2 = g.sourcesOf entry.1 := by
  obtain ⟨target, sources⟩ := entry
  simp only [references, List.mem_map, OrderedSet.mem_toList, Prod.mk.injEq]
  grind

/-- A target that is not there has no sources. -/
theorem sourcesOf_eq_empty (h : target ∉ g.targets) : g.sourcesOf target = ∅ := by
  refine OrderedSet.ext_mem fun source => ?_
  rw [mem_sourcesOf, iff_false_right OrderedSet.not_mem_empty]
  exact fun he => h (mem_targets.mpr ⟨_, he, rfl⟩)

theorem getD_references (g : UsageGraph) (target : String) :
    (g.references.get? target).getD ∅ = g.sourcesOf target := by
  by_cases h : target ∈ g.targets
  · have hentry : (target, g.sourcesOf target) ∈ g.references.toList := mem_references.mpr ⟨h, rfl⟩
    rw [OrderedMap.get?_eq_some_iff.mpr hentry, Option.getD_some]
  · cases hget : g.references.get? target with
    | none => rw [Option.getD_none, sourcesOf_eq_empty h]
    | some sources =>
      exact absurd (mem_references.mp (OrderedMap.get?_eq_some_iff.mp hget)).1 h

theorem referrers_references (g : UsageGraph) (target : String) :
    g.references.referrers target = g.referrers target := by
  have h := congrArg OrderedSet.toList (getD_references g target)
  rw [References.referrers]
  cases hget : g.references.get? target with
  | none => rw [hget] at h; exact h
  | some sources => rw [hget] at h; exact h

theorem mem_edges_recordEdge :
    e ∈ (g.recordEdge target source).edges ↔ e = ⟨target, source⟩ ∨ e ∈ g.edges :=
  OrderedSet.mem_insert

/-- Recording a reference adds its source to those of its target, and no other target is touched. -/
theorem references_recordEdge (g : UsageGraph) (target source : String) :
    (g.recordEdge target source).references = g.references.record ⟨target, source⟩ := by
  have htargets {x : String} :
      x ∈ (g.recordEdge target source).targets ↔ x = target ∨ x ∈ g.targets := by
    simp only [mem_targets, mem_edges_recordEdge]
    grind
  have hown : (g.recordEdge target source).sourcesOf target =
      (g.sourcesOf target).insert source := by
    refine OrderedSet.ext_mem fun x => ?_
    simp [mem_sourcesOf, mem_edges_recordEdge, OrderedSet.mem_insert]
  have hother {x : String} (hx : x ≠ target) :
      (g.recordEdge target source).sourcesOf x = g.sourcesOf x := by
    refine OrderedSet.ext_mem fun y => ?_
    simp [mem_sourcesOf, mem_edges_recordEdge, hx]
  refine OrderedMap.ext_mem fun entry => ?_
  rw [References.record, OrderedMap.mem_put, getD_references, mem_references, mem_references,
    htargets]
  obtain ⟨x, sources⟩ := entry
  by_cases hx : x = target
  · subst hx
    simp [hown]
  · simp [hx, hother hx]

/-- The references by their targets, written out, are the references in their order. -/
theorem pairs_references (g : UsageGraph) : g.references.pairs = g.edges.toList := by
  refine OrderedSet.eq_of_mem_iff ?_ g.edges.ascending fun e => ?_
  · refine List.pairwise_flatMap.mpr ⟨fun entry _ => ?_, ?_⟩
    · refine List.pairwise_map.mpr (entry.2.ascending.imp fun {s s'} h => ?_)
      exact Ordering.then_eq_lt.mpr (.inr ⟨ReflOrd.compare_self, h⟩)
    · refine g.references.ascending.imp fun {entry entry'} h => ?_
      rintro _ he _ he'
      obtain ⟨s, -, rfl⟩ := List.mem_map.mp he
      obtain ⟨s', -, rfl⟩ := List.mem_map.mp he'
      exact Ordering.then_eq_lt.mpr (.inl h)
  · rw [References.mem_pairs, OrderedSet.mem_toList]
    constructor
    · rintro ⟨entry, hentry, htarget, hsource⟩
      rw [(mem_references.mp hentry).2, ← htarget, mem_sourcesOf] at hsource
      exact hsource
    · intro he
      exact ⟨(e.target, g.sourcesOf e.target), mem_references.mpr ⟨mem_targets.mpr ⟨e, he, rfl⟩, rfl⟩,
        rfl, mem_sourcesOf.mpr he⟩

theorem size_arrows (g : UsageGraph) : g.digraph.arrows.size = g.edgeCount := by
  have hnodup : (g.edges.toList.map fun e => Arrow.mk e.source e.target).Nodup := by
    refine (OrderedSet.nodup_of_ascending g.edges.ascending).map fun e e' h => ?_
    obtain ⟨hsource, htarget⟩ := Arrow.mk.inj h
    cases e
    cases e'
    rw [Edge.mk.injEq]
    exact ⟨htarget, hsource⟩
  exact (OrderedSet.size_eq_length hnodup fun _ => OrderedSet.mem_ofList).trans (List.length_map _)

theorem nodes_references_digraph : name ∈ g.references.digraph.nodes ↔ name ∈ g.digraph.nodes := by
  rw [References.mem_nodes_digraph, mem_nodes_digraph]
  constructor
  · rintro ⟨entry, hentry, rfl | hsource⟩
    · obtain ⟨e, he, htarget⟩ := mem_targets.mp (mem_references.mp hentry).1
      exact ⟨e, he, .inl htarget⟩
    · rw [(mem_references.mp hentry).2, mem_sourcesOf] at hsource
      exact ⟨_, hsource, .inr rfl⟩
  · rintro ⟨e, he, hname⟩
    refine ⟨(e.target, g.sourcesOf e.target), mem_references.mpr ⟨mem_targets.mpr ⟨e, he, rfl⟩, rfl⟩,
      hname.imp Eq.symm ?_⟩
    rintro rfl
    exact mem_sourcesOf.mpr he

/-- Put together target by target, the graph of the references is the same. -/
theorem digraph_references (g : UsageGraph) : g.references.digraph = g.digraph := by
  have hnodes : g.references.digraph.nodes = g.digraph.nodes :=
    OrderedSet.ext_mem fun _ => nodes_references_digraph
  have harrows : g.references.digraph.arrows = g.digraph.arrows := by
    refine OrderedSet.ext_mem fun a => ?_
    rw [References.mem_arrows_digraph, pairs_references, mem_arrows_digraph, OrderedSet.mem_toList]
  cases hd : g.references.digraph
  cases hd' : g.digraph
  simp_all

end UsageGraph

def Addition.edges : Addition → List Edge
  | .edge target source => [⟨target, source⟩]
  | .reference source ref =>
    match ref.target with
    | .file path | .route path => [⟨path, source⟩]
    | .unresolved _ => []
  | .candidate _ | .used _ | .unresolved _ => []

namespace UsageGraph

variable {g : UsageGraph} {a : Addition} {additions : List Addition} {e : Edge}

theorem edge_mem_facts_iff : .edge e ∈ a.facts ↔ e ∈ a.edges := by
  cases a with
  | reference source ref =>
    rw [Addition.facts, Addition.edges]
    cases ref.target <;> simp
  | candidate | used | edge | unresolved => simp [Addition.facts, Addition.edges]

theorem references_add (g : UsageGraph) (a : Addition) :
    (g.add a).references = a.edges.foldl References.record g.references := by
  cases a with
  | candidate | used | unresolved => rfl
  | edge target source => exact references_recordEdge g target source
  | reference source ref =>
    rw [add, apply, Addition.edges]
    cases ref.target with
    | file path => exact references_recordEdge g path source
    | route path => exact references_recordEdge g path source
    | unresolved name => rfl

/-- All references that additions record, in order. -/
def recorded (additions : List Addition) : List Edge := additions.flatMap Addition.edges

theorem references_addAll (g : UsageGraph) (additions : List Addition) :
    (g.addAll additions).references = (recorded additions).foldl References.record g.references := by
  induction additions generalizing g with
  | nil => rfl
  | cons a additions ih =>
    rw [addAll, List.foldl_cons, ← addAll, ih, references_add, recorded, recorded,
      List.flatMap_cons, List.foldl_append]

theorem mem_edges_addAll : e ∈ ((∅ : UsageGraph).addAll additions).edges ↔ e ∈ recorded additions := by
  have hheld : e ∈ ((∅ : UsageGraph).addAll additions).edges ↔
      (∃ a ∈ additions, .edge e ∈ a.facts) ∨ e ∈ (∅ : UsageGraph).edges :=
    holds_addAll (f := .edge e)
  rw [hheld, or_iff_left not_mem_edges_empty, recorded, List.mem_flatMap]
  simp only [edge_mem_facts_iff]

/-- All that can be asked about the references of a graph is about these pairs. -/
structure AgreesOn (g : UsageGraph) (pairs : List Edge) : Prop where
  /-- Recorded one after the other, the pairs are the references by their targets. -/
  recorded : g.references = pairs.foldl References.record ∅
  /-- No target is without a source. -/
  sources : ∀ entry ∈ g.references.toList, entry.2.toList ≠ []
  edgeCount : g.edgeCount = pairs.dedup.length
  count : g.references.count = g.edgeCount
  mem_referrers : ∀ target source, source ∈ g.referrers target ↔ ⟨target, source⟩ ∈ pairs
  referrers_ascend : ∀ target, (g.referrers target).Pairwise fun a b => encode a < encode b
  referrers : ∀ target, g.references.referrers target = g.referrers target
  mem_arrows : ∀ source target, ⟨source, target⟩ ∈ g.digraph.arrows ↔ ⟨target, source⟩ ∈ pairs
  arrows : g.digraph.arrows.size = g.edgeCount
  mem_nodes : ∀ name, name ∈ g.digraph.nodes ↔ ∃ e ∈ pairs, e.target = name ∨ e.source = name
  digraph : g.references.digraph = g.digraph

/-- Whatever has been added to a graph, all that can be asked about its references is about the pairs
that were recorded. -/
theorem references_agree (additions : List Addition) :
    ((∅ : UsageGraph).addAll additions).AgreesOn (UsageGraph.recorded additions) where
  recorded := references_addAll ∅ additions
  sources entry hentry hnil := by
    obtain ⟨htarget, hsources⟩ := mem_references.mp hentry
    obtain ⟨e, he, htarget⟩ := mem_targets.mp htarget
    have hsource : e.source ∈ entry.2 := by
      rw [hsources, ← htarget]
      exact mem_sourcesOf.mpr he
    rw [← OrderedSet.mem_toList, hnil] at hsource
    exact absurd hsource List.not_mem_nil
  edgeCount := OrderedSet.size_eq_length (List.nodup_dedup _) fun e => by
    rw [mem_edges_addAll, List.mem_dedup]
  count := by rw [References.count_eq, pairs_references, UsageGraph.edgeCount, OrderedSet.size]
  mem_referrers target source := by rw [UsageGraph.mem_referrers, mem_edges_addAll]
  referrers_ascend target := (ascending_referrers _ target).imp encode_lt_encode
  referrers target := referrers_references _ target
  mem_arrows source target := by rw [mem_arrows_digraph, mem_edges_addAll]
  arrows := size_arrows _
  mem_nodes name := by
    rw [mem_nodes_digraph]
    simp only [mem_edges_addAll]
  digraph := digraph_references _

example : ((∅ : UsageGraph).addAll [.edge "a" "a", .edge "a" "a"]).digraph.arrows.toList =
    [⟨"a", "a"⟩] := by decide

end UsageGraph

end UnusedAssets
