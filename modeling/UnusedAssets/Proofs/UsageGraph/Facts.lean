import UnusedAssets.Proofs.UsageGraph.Order

/-!
# Facts of a usage graph

A graph is what it holds, and every addition gives it certain facts, whatever it holds already
(`holds_add`). After a sequence of additions it therefore holds what it held and what any of them gives
(`holds_addAll`), so their order and how often one is made do not matter, and nothing is lost again
(`addAll_of_same_additions`).
-/

namespace UnusedAssets

inductive Addition where
  | candidate (path : String)
  | used (path : String)
  | edge (target source : String)
  | unresolved (name : String)
  /-- A reference found in a source. -/
  | reference (source : String) (ref : Reference)
  deriving DecidableEq, Repr

inductive Fact where
  | candidate (path : String)
  | used (path : String)
  | edge (e : Edge)
  | unresolved (name : String)
  deriving DecidableEq, Repr

def Addition.facts : Addition → List Fact
  | .candidate path => [.candidate path]
  | .used path => [.used path]
  | .edge target source => [.edge ⟨target, source⟩]
  | .unresolved name => [.unresolved name]
  | .reference source ref =>
    match ref.target with
    | .file path => [.edge ⟨path, source⟩, .used path]
    | .route path => [.edge ⟨path, source⟩]
    | .unresolved name => [.unresolved name]

namespace UsageGraph

def add (g : UsageGraph) : Addition → UsageGraph
  | .candidate path => g.addCandidate path
  | .used path => g.markUsed path
  | .edge target source => g.recordEdge target source
  | .unresolved name => g.recordUnresolved name
  | .reference source ref => g.apply source ref

/-- The graph after additions, made one after the other. -/
def addAll (g : UsageGraph) (additions : List Addition) : UsageGraph := additions.foldl add g

def Holds (g : UsageGraph) : Fact → Prop
  | .candidate path => path ∈ g.candidates
  | .used path => path ∈ g.used
  | .edge e => e ∈ g.edges
  | .unresolved name => name ∈ g.unresolved

variable {g g' : UsageGraph} {f : Fact} {a : Addition} {additions : List Addition}
  {path name source target : String}

theorem ext_holds (h : ∀ f, g.Holds f ↔ g'.Holds f) : g = g' :=
  ext_mem (fun path => h (.candidate path)) (fun path => h (.used path)) (fun e => h (.edge e))
    fun name => h (.unresolved name)

theorem le_of_holds (h : ∀ f, g.Holds f → g'.Holds f) : g ≤ g' where
  candidates path := h (.candidate path)
  used path := h (.used path)
  edges e := h (.edge e)
  unresolved name := h (.unresolved name)

/-! ### One addition -/

theorem holds_addCandidate :
    (g.addCandidate path).Holds f ↔ f = .candidate path ∨ g.Holds f := by
  cases f <;> simp [Holds, addCandidate, OrderedSet.mem_insert]

theorem holds_markUsed : (g.markUsed path).Holds f ↔ f = .used path ∨ g.Holds f := by
  cases f <;> simp [Holds, markUsed, OrderedSet.mem_insert]

theorem holds_recordEdge :
    (g.recordEdge target source).Holds f ↔ f = .edge ⟨target, source⟩ ∨ g.Holds f := by
  cases f <;> simp [Holds, recordEdge, OrderedSet.mem_insert]

theorem holds_recordUnresolved :
    (g.recordUnresolved name).Holds f ↔ f = .unresolved name ∨ g.Holds f := by
  cases f <;> simp [Holds, recordUnresolved, OrderedSet.mem_insert]

/-- A graph holds after an addition what that says and what it held. -/
theorem holds_add : (g.add a).Holds f ↔ f ∈ a.facts ∨ g.Holds f := by
  cases a with
  | candidate path => rw [add, holds_addCandidate, Addition.facts, List.mem_singleton]
  | used path => rw [add, holds_markUsed, Addition.facts, List.mem_singleton]
  | edge target source => rw [add, holds_recordEdge, Addition.facts, List.mem_singleton]
  | unresolved name => rw [add, holds_recordUnresolved, Addition.facts, List.mem_singleton]
  | reference source ref =>
    rw [add, apply, Addition.facts]
    cases ref.target with
    | file path =>
      simp only [holds_markUsed, holds_recordEdge, List.mem_cons, List.not_mem_nil, or_false]
      rw [or_left_comm, or_assoc]
    | route path => simp only [holds_recordEdge, List.mem_singleton]
    | unresolved name => simp only [holds_recordUnresolved, List.mem_singleton]

theorem le_add (g : UsageGraph) (a : Addition) : g ≤ g.add a :=
  le_of_holds fun _ hf => holds_add.mpr (.inr hf)

theorem used_mem_facts_iff : .used path ∈ a.facts ↔
    a = .used path ∨ ∃ source ref, a = .reference source ref ∧ ref.target = .file path := by
  cases a with
  | reference source ref =>
    have hfile : .used path ∈ (Addition.reference source ref).facts ↔ ref.target = .file path := by
      rw [Addition.facts]
      cases ref.target <;> simp [eq_comm]
    rw [hfile]
    constructor
    · exact fun h => .inr ⟨source, ref, rfl, h⟩
    · rintro (h | ⟨source', ref', h, htarget⟩)
      · exact absurd h (by simp)
      · obtain ⟨-, rfl⟩ := Addition.reference.inj h
        exact htarget
  | candidate | used | edge | unresolved => simp [Addition.facts, eq_comm]

/-! ### Sequences of additions -/

theorem holds_addAll :
    (g.addAll additions).Holds f ↔ (∃ a ∈ additions, f ∈ a.facts) ∨ g.Holds f := by
  induction additions generalizing g with
  | nil => simp [addAll]
  | cons a additions ih =>
    simp only [List.mem_cons, exists_eq_or_imp]
    rw [addAll, List.foldl_cons, ← addAll, ih, holds_add, or_left_comm, or_assoc]

theorem le_addAll (g : UsageGraph) (additions : List Addition) : g ≤ g.addAll additions :=
  le_of_holds fun _ hf => holds_addAll.mpr (.inr hf)

/-- Which additions are made is all that counts, and a graph only grows by them. What is asked of it and
true stays true, and an unused path ceases to be unused only by an addition that marks it as used. -/
theorem addAll_of_same_additions (g : UsageGraph) :
    (∀ additions additions' : List Addition, (∀ a, a ∈ additions ↔ a ∈ additions') →
      g.addAll additions = g.addAll additions') ∧
    (∀ a, g ≤ g.add a) ∧
    (∀ (additions : List Addition) (x : String),
      (g.isEdgeTarget x = true → (g.addAll additions).isEdgeTarget x = true) ∧
      (g.isReferenced x = true → (g.addAll additions).isReferenced x = true) ∧
      (g.isViewReferenced x = true → (g.addAll additions).isViewReferenced x = true) ∧
      (g.isUsed x = true → (g.addAll additions).isUsed x = true) ∧
      (g.isCandidate x = true → (g.addAll additions).isCandidate x = true)) ∧
    ∀ a, ∀ path ∈ g.unused, path ∉ (g.add a).unused ↔
      a = .used path ∨ ∃ source ref, a = .reference source ref ∧ ref.target = .file path := by
  refine ⟨fun additions additions' hsame => ?_, fun a => ?_, fun additions x => ?_,
    fun a path hpath => ?_⟩
  · refine ext_holds fun f => ?_
    simp only [holds_addAll, hsame]
  · exact le_add g a
  · have hle := le_addAll g additions
    exact ⟨isEdgeTarget_of_le hle, isReferenced_of_le hle, isViewReferenced_of_le hle,
      isUsed_of_le hle, isCandidate_of_le hle⟩
  · obtain ⟨hcandidate, hunused⟩ := mem_unused.mp hpath
    have hstays : path ∈ (g.add a).candidates := (le_add g a).candidates path hcandidate
    have hmarked : path ∈ (g.add a).used ↔ .used path ∈ a.facts ∨ path ∈ g.used :=
      holds_add (f := .used path)
    rw [mem_unused, and_iff_right hstays, Classical.not_not, hmarked, or_iff_left hunused,
      used_mem_facts_iff]

theorem addAll_of_same_additions_logo :
    (∅ : UsageGraph).addAll [.candidate "public/logo.png", .candidate "public/logo.png",
        .reference "routes/web.php" (.asset "/logo.png")] =
      (∅ : UsageGraph).addAll [.reference "routes/web.php" (.asset "/logo.png"),
        .candidate "public/logo.png"] ∧
    "public/logo.png" ∈ ((∅ : UsageGraph).addCandidate "public/logo.png").unused ∧
    "public/logo.png" ∉ (((∅ : UsageGraph).addCandidate "public/logo.png").add
      (.reference "routes/web.php" (.asset "/logo.png"))).unused := by
  have hunused : "public/logo.png" ∈ ((∅ : UsageGraph).addCandidate "public/logo.png").unused := by
    decide
  obtain ⟨hsame, -⟩ := addAll_of_same_additions ∅
  obtain ⟨-, -, -, hleaves⟩ :=
    addAll_of_same_additions ((∅ : UsageGraph).addCandidate "public/logo.png")
  refine ⟨hsame _ _ fun a => ?_, hunused, (hleaves _ _ hunused).mpr (.inr ⟨_, _, rfl, by decide⟩)⟩
  simp only [List.mem_cons, List.not_mem_nil, or_false]
  rw [← or_assoc, or_self, or_comm]

end UsageGraph

end UnusedAssets
