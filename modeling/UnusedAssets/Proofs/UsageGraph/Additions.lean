import UnusedAssets.UsageGraph.Basic

/-!
# Additions to a usage graph

What a graph holds after references were added to it: what it held before, and what the references
refer to. `Reference.target` alone decides which of the three collections a reference goes to.
-/

namespace UnusedAssets.UsageGraph

variable {g : UsageGraph} {source x : String} {r : Reference} {rs : List Reference} {e : Edge}

@[simp] theorem not_mem_candidates_empty : x ∉ (∅ : UsageGraph).candidates :=
  OrderedSet.not_mem_empty

@[simp] theorem not_mem_used_empty : x ∉ (∅ : UsageGraph).used := OrderedSet.not_mem_empty

@[simp] theorem not_mem_edges_empty : e ∉ (∅ : UsageGraph).edges := OrderedSet.not_mem_empty

@[simp] theorem not_mem_unresolved_empty : x ∉ (∅ : UsageGraph).unresolved :=
  OrderedSet.not_mem_empty

theorem mem_unused : x ∈ g.unused ↔ x ∈ g.candidates ∧ x ∉ g.used := by
  rw [unused, List.mem_filter, OrderedSet.mem_toList, Bool.not_eq_true', ← Bool.not_eq_true,
    OrderedSet.contains_iff]

theorem mem_used_markUsed {path : String} :
    x ∈ (g.markUsed path).used ↔ x = path ∨ x ∈ g.used := OrderedSet.mem_insert

@[simp] theorem candidates_markUsed {path : String} :
    (g.markUsed path).candidates = g.candidates := rfl

@[simp] theorem edges_markUsed {path : String} : (g.markUsed path).edges = g.edges := rfl

@[simp] theorem unresolved_markUsed {path : String} :
    (g.markUsed path).unresolved = g.unresolved := rfl

theorem mem_candidates_addCandidate {path : String} :
    x ∈ (g.addCandidate path).candidates ↔ x = path ∨ x ∈ g.candidates :=
  OrderedSet.mem_insert

@[simp] theorem candidates_apply : (g.apply source r).candidates = g.candidates := by
  unfold apply
  cases r.target <;> rfl

theorem mem_used_apply : x ∈ (g.apply source r).used ↔ r.target = .file x ∨ x ∈ g.used := by
  unfold apply
  cases r.target with
  | file path =>
    rw [mem_used_markUsed, Target.file.injEq, eq_comm]
    rfl
  | route path => simp [recordEdge]
  | unresolved name => simp [recordUnresolved]

theorem mem_edges_apply : e ∈ (g.apply source r).edges ↔
    (e.source = source ∧ (r.target = .file e.target ∨ r.target = .route e.target)) ∨
      e ∈ g.edges := by
  have hedge (path : String) : e = ⟨path, source⟩ ↔ e.source = source ∧ path = e.target := by
    cases e
    simp only [Edge.mk.injEq]
    exact ⟨fun h => ⟨h.2, h.1.symm⟩, fun h => ⟨h.2.symm, h.1⟩⟩
  unfold apply
  cases r.target with
  | file path => simp [recordEdge, OrderedSet.mem_insert, hedge]
  | route path => simp [recordEdge, OrderedSet.mem_insert, hedge]
  | unresolved name => simp [recordUnresolved]

theorem mem_unresolved_apply :
    x ∈ (g.apply source r).unresolved ↔ r.target = .unresolved x ∨ x ∈ g.unresolved := by
  unfold apply
  cases r.target with
  | file path => simp [recordEdge]
  | route path => simp [recordEdge]
  | unresolved name => simp [recordUnresolved, OrderedSet.mem_insert, eq_comm]

theorem applyAll_cons :
    g.applyAll source (r :: rs) = (g.apply source r).applyAll source rs := rfl

@[simp] theorem candidates_applyAll : (g.applyAll source rs).candidates = g.candidates := by
  induction rs generalizing g with
  | nil => rfl
  | cons r rs ih => rw [applyAll_cons, ih, candidates_apply]

theorem mem_used_applyAll :
    x ∈ (g.applyAll source rs).used ↔ (∃ r ∈ rs, r.target = .file x) ∨ x ∈ g.used := by
  induction rs generalizing g with
  | nil => simp [applyAll]
  | cons r rs ih =>
    simp only [List.mem_cons, exists_eq_or_imp]
    rw [applyAll_cons, ih, mem_used_apply, or_left_comm, or_assoc]

theorem mem_edges_applyAll : e ∈ (g.applyAll source rs).edges ↔
    (e.source = source ∧ ∃ r ∈ rs, r.target = .file e.target ∨ r.target = .route e.target) ∨
      e ∈ g.edges := by
  induction rs generalizing g with
  | nil => simp [applyAll]
  | cons r rs ih =>
    simp only [List.mem_cons, exists_eq_or_imp]
    rw [applyAll_cons, ih, mem_edges_apply, or_left_comm, ← or_assoc, ← and_or_left]

theorem mem_unresolved_applyAll : x ∈ (g.applyAll source rs).unresolved ↔
    (∃ r ∈ rs, r.target = .unresolved x) ∨ x ∈ g.unresolved := by
  induction rs generalizing g with
  | nil => simp [applyAll]
  | cons r rs ih =>
    simp only [List.mem_cons, exists_eq_or_imp]
    rw [applyAll_cons, ih, mem_unresolved_apply, or_left_comm, or_assoc]

end UnusedAssets.UsageGraph
