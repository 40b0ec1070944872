import UnusedAssets.Phase
import UnusedAssets.Proofs.UsageGraph.Order

/-!
# When a visit marks its file

A controller or a view is marked if a path in use is what else it is known by, or if some edge of
the graph speaks for it (`isMarked_iff`). An edge speaks for a file by its target, but also by its
source alone, wherever that merely contains what the file is known by. A graph that holds more
marks more.
-/

namespace UnusedAssets

open Text

/-- Whether an edge is a reason to mark a file. -/
def Edge.SpeaksFor (e : Edge) (v : Visit) : Prop :=
  e.target = v.name ∨ e.target = v.known ∨
    (v.kind = .template ∧ e.target = Layout.viewPath v.known) ∨ mentions e.source v.known = true

instance (e : Edge) (v : Visit) : Decidable (e.SpeaksFor v) := by
  unfold Edge.SpeaksFor; infer_instance

namespace Visit

variable {v : Visit} {g g' : UsageGraph}

theorem isMarked_iff : v.isMarked g = true ↔
    v.kind = .route ∨ v.known ∈ g.used ∨ ∃ e ∈ g.edges, e.SpeaksFor v := by
  unfold isMarked Edge.SpeaksFor
  cases v.kind with
  | route => simp
  | handler =>
    simp only [Bool.or_eq_true, UsageGraph.isEdgeTarget_iff, UsageGraph.isReferenced_iff]
    grind
  | template =>
    simp only [Bool.or_eq_true, UsageGraph.isViewReferenced, UsageGraph.isEdgeTarget_iff,
      UsageGraph.isReferenced_iff]
    grind

theorem isMarked_of_le (hg : g ≤ g') (h : v.isMarked g = true) : v.isMarked g' = true := by
  rw [isMarked_iff] at h ⊢
  refine h.imp_right fun h => h.imp (hg.used _) fun h => ?_
  obtain ⟨e, he, hspeaks⟩ := h
  exact ⟨e, hg.edges e he, hspeaks⟩

end Visit

end UnusedAssets
