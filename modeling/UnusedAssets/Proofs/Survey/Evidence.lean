import UnusedAssets.Proofs.Survey.Marking
import UnusedAssets.Proofs.Survey.Visits
import UnusedAssets.Proofs.Text.Substitution
import UnusedAssets.Proofs.UsageGraph.Order

/-!
# What a visit asks of a graph

A visit asks for edges and for one path in use, what else its file is known by; and that never holds
a slash (`not_mem_slash_known`). Two graphs with the same edges that agree on the used paths without
a slash therefore mark the same files, and go on doing so as long as the visits refer to the same
(`markedVisits_congr`). Neither candidates, nor paths such as those of the public entries, nor names
that lead nowhere make a difference.
-/

namespace UnusedAssets

open Text

theorem Layout.not_mem_slash_viewName {path view : String} (h : viewName? path = some view) :
    '/' ∉ view.toList := by
  unfold viewName? at h
  split at h
  · exact absurd h (by simp)
  · split at h
    · exact absurd h (by simp)
    · obtain rfl := Option.some.inj h
      exact not_mem_substitute (by decide)

structure UsageGraph.SameEvidence (g g' : UsageGraph) : Prop where
  used : ∀ x, '/' ∉ x.toList → (x ∈ g.used ↔ x ∈ g'.used)
  edges : ∀ e, e ∈ g.edges ↔ e ∈ g'.edges

def Reference.Resolves (r : Reference) : Prop := ∀ name, r.target ≠ .unresolved name

theorem Reference.Resolves.of_file {r : Reference} {path : String} (h : r.target = .file path) :
    r.Resolves := fun name => by simp [h]

theorem Reference.Resolves.of_route {r : Reference} {path : String}
    (h : r.target = .route path) : r.Resolves := fun name => by simp [h]

namespace Survey

variable {p p' : Project} {g g' : UsageGraph} {v : Visit} {vs : List Visit}

theorem not_mem_slash_known (h : v ∈ visits p) : '/' ∉ v.known.toList := by
  rw [visits, List.mem_append, List.mem_append] at h
  rcases h with (h | h) | h
  · obtain ⟨path, -, hv⟩ := List.mem_filterMap.mp h
    obtain ⟨name, -, rfl⟩ := Option.map_eq_some_iff.mp hv
    simp
  · obtain ⟨path, -, hv⟩ := List.mem_filterMap.mp h
    obtain ⟨name, -, rfl⟩ := Option.map_eq_some_iff.mp hv
    exact Path.not_mem_slash_stem path
  · obtain ⟨path, -, hv⟩ := List.mem_filterMap.mp h
    split at hv
    · exact absurd hv (by simp)
    · obtain ⟨view, hview, rfl⟩ := Option.map_eq_some_iff.mp hv
      exact Layout.not_mem_slash_viewName hview

/-- Whether the file of a visit refers to the same files and routes in two projects. -/
def SameTargets (p p' : Project) (v : Visit) : Prop :=
  ∀ r : Reference, r.Resolves → (r ∈ found p v ↔ r ∈ found p' v)

theorem isMarked_congr (hg : g.SameEvidence g') (hv : '/' ∉ v.known.toList) :
    v.isMarked g = v.isMarked g' := by
  rw [Bool.eq_iff_iff, Visit.isMarked_iff, Visit.isMarked_iff, hg.used _ hv]
  simp only [hg.edges]

theorem sameEvidence_afterVisit (hg : g.SameEvidence g') (hv : '/' ∉ v.known.toList)
    (hrefs : SameTargets p p' v) : (afterVisit p g v).SameEvidence (afterVisit p' g' v) := by
  rw [afterVisit, afterVisit, isMarked_congr hg hv]
  split
  · constructor
    · intro x hx
      simp only [UsageGraph.mem_used_applyAll, UsageGraph.mem_used_markUsed, hg.used x hx]
      refine or_congr_left (exists_congr fun r => and_congr_left fun htarget => ?_)
      exact hrefs r (.of_file htarget)
    · intro e
      simp only [UsageGraph.mem_edges_applyAll, UsageGraph.edges_markUsed, hg.edges e]
      refine or_congr_left (and_congr_right fun _ => exists_congr fun r =>
        and_congr_left fun htarget => ?_)
      exact hrefs r (htarget.elim .of_file .of_route)
  · exact hg

/-- Visits that refer to the same mark the same files, whatever else the graphs hold. -/
theorem markedVisits_congr (hg : g.SameEvidence g') (hvs : ∀ v ∈ vs, '/' ∉ v.known.toList)
    (hrefs : ∀ v ∈ vs, SameTargets p p' v) : markedVisits p g vs = markedVisits p' g' vs := by
  induction vs generalizing g g' with
  | nil => rfl
  | cons v vs ih =>
    have hv := hvs v List.mem_cons_self
    have hvs' : ∀ w ∈ vs, '/' ∉ w.known.toList := fun w hw => hvs w (List.mem_cons_of_mem _ hw)
    have hrefs' : ∀ w ∈ vs, SameTargets p p' w := fun w hw => hrefs w (List.mem_cons_of_mem _ hw)
    have hafter := sameEvidence_afterVisit hg hv (hrefs v List.mem_cons_self)
    rw [markedVisits, markedVisits, isMarked_congr hg hv, ih hafter hvs' hrefs',
      ih hg hvs' hrefs']

end Survey

end UnusedAssets
