import Mathlib.Order.Defs.PartialOrder
import UnusedAssets.Proofs.UsageGraph.Additions

/-!
# Graphs that hold more

One graph is below another if the other holds all that it holds. Every addition leads upwards, and
more added to more gives more (`applyAll_le_applyAll`). What is asked of a graph and true stays true
further up.
-/

namespace UnusedAssets.UsageGraph

structure Within (g g' : UsageGraph) : Prop where
  candidates : ∀ x ∈ g.candidates, x ∈ g'.candidates
  used : ∀ x ∈ g.used, x ∈ g'.used
  edges : ∀ e ∈ g.edges, e ∈ g'.edges
  unresolved : ∀ x ∈ g.unresolved, x ∈ g'.unresolved

instance : Preorder UsageGraph where
  le := Within
  le_refl _ := ⟨fun _ h => h, fun _ h => h, fun _ h => h, fun _ h => h⟩
  le_trans _ _ _ h h' :=
    ⟨fun x hx => h'.candidates x (h.candidates x hx), fun x hx => h'.used x (h.used x hx),
      fun e he => h'.edges e (h.edges e he), fun x hx => h'.unresolved x (h.unresolved x hx)⟩

variable {g g' : UsageGraph} {source path : String} {rs rs' : List Reference}

/-- Graphs that hold the same are equal. -/
theorem ext_mem (hcandidates : ∀ x, x ∈ g.candidates ↔ x ∈ g'.candidates)
    (hused : ∀ x, x ∈ g.used ↔ x ∈ g'.used) (hedges : ∀ e, e ∈ g.edges ↔ e ∈ g'.edges)
    (hunresolved : ∀ x, x ∈ g.unresolved ↔ x ∈ g'.unresolved) : g = g' := by
  cases g
  cases g'
  congr 1
  · exact OrderedSet.ext_mem hcandidates
  · exact OrderedSet.ext_mem hused
  · exact OrderedSet.ext_mem hedges
  · exact OrderedSet.ext_mem hunresolved

theorem le_markUsed (g : UsageGraph) (path : String) : g ≤ g.markUsed path where
  candidates _ hx := hx
  used _ hx := mem_used_markUsed.mpr (.inr hx)
  edges _ he := he
  unresolved _ hx := hx

theorem markUsed_le_markUsed (h : g ≤ g') (path : String) : g.markUsed path ≤ g'.markUsed path where
  candidates := h.candidates
  used x hx := mem_used_markUsed.mpr ((mem_used_markUsed.mp hx).imp_right (h.used x))
  edges := h.edges
  unresolved := h.unresolved

theorem le_applyAll (g : UsageGraph) (source : String) (rs : List Reference) :
    g ≤ g.applyAll source rs where
  candidates x hx := by rwa [candidates_applyAll]
  used _ hx := mem_used_applyAll.mpr (.inr hx)
  edges _ he := mem_edges_applyAll.mpr (.inr he)
  unresolved _ hx := mem_unresolved_applyAll.mpr (.inr hx)

theorem applyAll_le_applyAll (h : g ≤ g') (source : String) (hrs : ∀ r ∈ rs, r ∈ rs') :
    g.applyAll source rs ≤ g'.applyAll source rs' where
  candidates x hx := by
    rw [candidates_applyAll] at hx ⊢
    exact h.candidates x hx
  used x hx := by
    rw [mem_used_applyAll] at hx ⊢
    refine hx.imp (fun hr => ?_) (h.used x)
    obtain ⟨r, hr, htarget⟩ := hr
    exact ⟨r, hrs r hr, htarget⟩
  edges e he := by
    rw [mem_edges_applyAll] at he ⊢
    refine he.imp (fun hr => ?_) (h.edges e)
    obtain ⟨hsource, r, hr, htarget⟩ := hr
    exact ⟨hsource, r, hrs r hr, htarget⟩
  unresolved x hx := by
    rw [mem_unresolved_applyAll] at hx ⊢
    refine hx.imp (fun hr => ?_) (h.unresolved x)
    obtain ⟨r, hr, htarget⟩ := hr
    exact ⟨r, hrs r hr, htarget⟩

/-! ### What is asked of a graph -/

variable {x : String}

theorem isEdgeTarget_iff : g.isEdgeTarget x = true ↔ ∃ e ∈ g.edges, e.target = x := by
  simp [isEdgeTarget]

theorem isReferenced_iff : g.isReferenced x = true ↔
    x ∈ g.used ∨ ∃ e ∈ g.edges, e.target = x ∨ Text.mentions e.source x = true := by
  simp only [isReferenced, Bool.or_eq_true, OrderedSet.contains_iff, isEdgeTarget_iff,
    List.any_eq_true, OrderedSet.mem_toList, and_or_left, exists_or, or_assoc]

theorem isEdgeTarget_of_le (h : g ≤ g') (hx : g.isEdgeTarget x = true) :
    g'.isEdgeTarget x = true := by
  rw [isEdgeTarget_iff] at hx ⊢
  obtain ⟨e, he, htarget⟩ := hx
  exact ⟨e, h.edges e he, htarget⟩

theorem isReferenced_of_le (h : g ≤ g') (hx : g.isReferenced x = true) :
    g'.isReferenced x = true := by
  rw [isReferenced_iff] at hx ⊢
  refine hx.imp (h.used x) fun hedge => ?_
  obtain ⟨e, he, hnamed⟩ := hedge
  exact ⟨e, h.edges e he, hnamed⟩

theorem isViewReferenced_of_le (h : g ≤ g') (hx : g.isViewReferenced x = true) :
    g'.isViewReferenced x = true := by
  rw [isViewReferenced, Bool.or_eq_true] at hx ⊢
  exact hx.imp (isEdgeTarget_of_le h) (isReferenced_of_le h)

theorem isUsed_of_le (h : g ≤ g') (hx : g.isUsed x = true) : g'.isUsed x = true :=
  OrderedSet.contains_iff.mpr (h.used x (OrderedSet.contains_iff.mp hx))

theorem isCandidate_of_le (h : g ≤ g') (hx : g.isCandidate x = true) : g'.isCandidate x = true :=
  OrderedSet.contains_iff.mpr (h.candidates x (OrderedSet.contains_iff.mp hx))

end UnusedAssets.UsageGraph
