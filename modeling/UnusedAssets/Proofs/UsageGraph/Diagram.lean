import UnusedAssets.Proofs.Text.ByteOrder
import UnusedAssets.Proofs.UsageGraph.DiagramReader

/-!
# What a diagram shows

The diagram of a usage graph is read back as the graph, whatever stands in its paths
(`diagram_shows`): the nodes are the candidates and the two ends of all references, each once and
with the colour of its state, and the edges are the references.
-/

namespace UnusedAssets

open Std Text

namespace Diagram

open Dot

variable {g : UsageGraph} {name : String}

/-- A drawing shows a usage graph. Names are compared by their bytes, edges by their sources and then
by their targets. -/
structure Shows (d : Drawing) (g : UsageGraph) : Prop where
  nodes_ascend : (d.nodes.map Prod.fst).Pairwise fun a b => encode a < encode b
  mem_nodes : ∀ name, name ∈ d.nodes.map Prod.fst ↔
    name ∈ g.candidates ∨ ∃ e ∈ g.edges, e.target = name ∨ e.source = name
  grey : ∀ n ∈ d.nodes, n.1 ∉ g.candidates → n.2 = [("fillcolor", "lightgray")]
  green : ∀ n ∈ d.nodes, n.1 ∈ g.candidates → n.1 ∈ g.used → n.2 = [("fillcolor", "lightgreen")]
  red : ∀ n ∈ d.nodes, n.1 ∈ g.candidates → n.1 ∉ g.used → n.2 = [("fillcolor", "lightcoral")]
  edges_ascend : d.edges.Pairwise fun a b =>
    encode a.1 < encode b.1 ∨ a.1 = b.1 ∧ encode a.2 < encode b.2
  mem_edges : ∀ source target, (source, target) ∈ d.edges ↔ ⟨target, source⟩ ∈ g.edges

/-- The nodes and edges of a usage graph in the order in which they are drawn. -/
def drawn (g : UsageGraph) : Drawing where
  nodes := (nodes g).toList.map fun name => (name, [("fillcolor", colour g name)])
  edges := g.digraph.arrows.toList.map fun a => (a.source, a.target)

/-! ### From text to tokens -/

def headTokens : List Token := [.word "digraph", .word "deadasset", .mark '{']

def directionTokens : List Token := [.word "rankdir", .mark '=', .word "LR"]

def boxTokens : List Token :=
  [.word "node", .mark '[', .word "shape", .mark '=', .word "box", .mark ',', .word "style",
    .mark '=', .word "filled", .mark ',', .word "fontname", .mark '=', .name "JetBrains Mono",
    .mark ']']

def nodeTokens (g : UsageGraph) (name : String) : List Token :=
  [.name name, .mark '[', .word "fillcolor", .mark '=', .word (colour g name), .mark ']']

def arrowTokens (a : Arrow) : List Token := [.name a.source, .arrow, .name a.target]

/-- The statements of a diagram, each with its semicolon, and the closing brace. -/
def bodyTokens (g : UsageGraph) : List Token :=
  directionTokens ++ .mark ';' :: (boxTokens ++ .mark ';' ::
    (((nodes g).toList.flatMap fun name => nodeTokens g name ++ [.mark ';']) ++
      ((g.digraph.arrows.toList.flatMap fun a => arrowTokens a ++ [.mark ';']) ++ [.mark '}'])))

theorem colour_cases (g : UsageGraph) (name : String) :
    colour g name = "lightgray" ∨ colour g name = "lightgreen" ∨ colour g name = "lightcoral" := by
  unfold colour
  split_ifs
  · exact .inl rfl
  · exact .inr (.inl rfl)
  · exact .inr (.inr rfl)

theorem readsAs_opening : ReadsAs opening
    ((headTokens ++ (directionTokens ++ [.mark ';'])) ++ (boxTokens ++ [.mark ';'])) := by
  have hdirection : ReadsAs "digraph deadasset \x7b\n  rankdir=LR;\n"
      (headTokens ++ (directionTokens ++ [.mark ';'])) := fun _ => rfl
  have hbox : ReadsAs "  node [shape=box, style=filled, fontname=\"JetBrains Mono\"];\n\n"
      (boxTokens ++ [.mark ';']) := fun _ => rfl
  exact hdirection.append hbox

/-- A colour is a bare word, so it ends only where the bracket stands. -/
theorem readsAs_colour (g : UsageGraph) (name : String) :
    ReadsAs (colour g name ++ "];\n") [.word (colour g name), .mark ']', .mark ';'] := by
  rcases colour_cases g name with h | h | h
  all_goals
    rw [h]
    exact fun _ => rfl

theorem readsAs_nodeLine (g : UsageGraph) (name : String) :
    ReadsAs (nodeLine g name) (nodeTokens g name ++ [.mark ';']) := by
  have hindent : ReadsAs "  " [] := fun _ => rfl
  have hbracket : ReadsAs " [fillcolor=" [.mark '[', .word "fillcolor", .mark '='] := fun _ => rfl
  have hall := ((hindent.append (readsAs_quoted name)).append hbracket).append (readsAs_colour g name)
  rwa [← String.append_assoc] at hall

theorem readsAs_arrowLine (a : Arrow) : ReadsAs (arrowLine a) (arrowTokens a ++ [.mark ';']) := by
  have hindent : ReadsAs "  " [] := fun _ => rfl
  have harrow : ReadsAs " -> " [.arrow] := fun _ => rfl
  have hend : ReadsAs ";\n" [.mark ';'] := fun _ => rfl
  exact (((hindent.append (readsAs_quoted a.source)).append harrow).append
    (readsAs_quoted a.target)).append hend

theorem tokens?_diagram (g : UsageGraph) :
    tokens? g.diagram = some (headTokens ++ bodyTokens g) := by
  have hnodes := readsAs_join (readsAs_nodeLine g) (nodes g).toList
  have hline : ReadsAs "\n" [] := fun _ => rfl
  have harrows := readsAs_join readsAs_arrowLine g.digraph.arrows.toList
  have hend : ReadsAs "\x7d\n" [.mark '}'] := fun _ => rfl
  have hall := (((readsAs_opening.append hnodes).append hline).append harrows).append hend
  rw [UsageGraph.diagram, tokens?_of_readsAs hall]
  simp [bodyTokens]

/-! ### From tokens to statements -/

def nodeStatement (g : UsageGraph) (name : String) : Statement :=
  .node name [("fillcolor", colour g name)]

def arrowStatement (a : Arrow) : Statement := .edge a.source a.target []

theorem statements?_body (g : UsageGraph) : statements? (fields (.mark ';') (bodyTokens g)) =
    some (.setting :: .setting :: ((nodes g).toList.map (nodeStatement g) ++
      g.digraph.arrows.toList.map arrowStatement)) := by
  have hend : statements? (fields (.mark ';') [.mark '}']) = some [] := by decide
  have harrows := statements?_flatMap (by simp [arrowTokens])
    (show ∀ a, statement? (arrowTokens a) = some (arrowStatement a) from fun _ => rfl)
    hend g.digraph.arrows.toList
  have hnodes := statements?_flatMap (by simp [nodeTokens])
    (show ∀ name, statement? (nodeTokens g name) = some (nodeStatement g name) from fun _ => rfl)
    harrows (nodes g).toList
  have hbox : statement? boxTokens = some .setting := by decide
  have hdirection : statement? directionTokens = some .setting := by decide
  rw [List.append_nil] at hnodes
  exact statements?_cons (by decide) hdirection (statements?_cons (by decide) hbox hnodes)

theorem drawing_statements (g : UsageGraph) :
    drawing (.setting :: .setting :: ((nodes g).toList.map (nodeStatement g) ++
      g.digraph.arrows.toList.map arrowStatement)) = drawn g := by
  simp [drawing, drawn, List.filterMap_cons, Statement.node?, Statement.edge?, nodeStatement,
    arrowStatement, Function.comp_def]

/-- A diagram is read as what is drawn. -/
theorem read_diagram (g : UsageGraph) : Dot.read g.diagram = some (drawn g) := by
  rw [Dot.read, tokens?_diagram]
  simp only [headTokens, List.cons_append, List.nil_append, statements?_body, Option.map_some,
    drawing_statements]

/-! ### From the drawing to the graph -/

theorem mem_nodes_iff : name ∈ nodes g ↔
    name ∈ g.candidates ∨ ∃ e ∈ g.edges, e.target = name ∨ e.source = name := by
  rw [nodes, OrderedSet.mem_ofList, List.mem_append, OrderedSet.mem_toList, OrderedSet.mem_toList,
    UsageGraph.mem_nodes_digraph, or_comm]

theorem encode_lt_of_arrow_lt {a b : Arrow} (h : compare a b = .lt) :
    encode a.source < encode b.source ∨
      a.source = b.source ∧ encode a.target < encode b.target := by
  rcases Ordering.then_eq_lt.mp h with hsource | ⟨hsource, htarget⟩
  · exact .inl (encode_lt_encode hsource)
  · exact .inr ⟨LawfulEqOrd.eq_of_compare hsource, encode_lt_encode htarget⟩

theorem names_drawn (g : UsageGraph) : (drawn g).nodes.map Prod.fst = (nodes g).toList := by
  rw [drawn, List.map_map]
  exact List.map_id _

theorem eq_of_mem_drawn {n : String × List (String × String)} (h : n ∈ (drawn g).nodes) :
    n.2 = [("fillcolor", colour g n.1)] := by
  obtain ⟨name, -, rfl⟩ := List.mem_map.mp h
  rfl

theorem shows_drawn (g : UsageGraph) : Shows (drawn g) g where
  nodes_ascend := by
    rw [names_drawn]
    exact (nodes g).ascending.imp encode_lt_encode
  mem_nodes name := by
    rw [names_drawn]
    exact mem_nodes_iff
  grey n hn hcandidate := by
    rw [eq_of_mem_drawn hn]
    simp [colour, UsageGraph.isCandidate, OrderedSet.contains, hcandidate]
  green n hn hcandidate hused := by
    rw [eq_of_mem_drawn hn]
    simp [colour, UsageGraph.isCandidate, UsageGraph.isUsed, OrderedSet.contains, hcandidate, hused]
  red n hn hcandidate hused := by
    rw [eq_of_mem_drawn hn]
    simp [colour, UsageGraph.isCandidate, UsageGraph.isUsed, OrderedSet.contains, hcandidate, hused]
  edges_ascend := List.pairwise_map.mpr (g.digraph.arrows.ascending.imp encode_lt_of_arrow_lt)
  mem_edges source target := by
    rw [drawn, List.mem_map]
    constructor
    · rintro ⟨a, ha, hpair⟩
      obtain ⟨rfl, rfl⟩ := Prod.mk.inj hpair
      exact UsageGraph.mem_arrows_digraph.mp ha
    · exact fun h => ⟨⟨source, target⟩, UsageGraph.mem_arrows_digraph.mpr h, rfl⟩

end Diagram

/-- The diagram of a usage graph is a directed graph that shows it. -/
theorem UsageGraph.diagram_shows (g : UsageGraph) :
    ∃ d, Dot.read g.diagram = some d ∧ Diagram.Shows d g :=
  ⟨Diagram.drawn g, Diagram.read_diagram g, Diagram.shows_drawn g⟩

end UnusedAssets
