import UnusedAssets.Analysis
import UnusedAssets.Proofs.Candidate
import UnusedAssets.Proofs.Survey.Run
import UnusedAssets.Proofs.Text.ByteOrder

/-!
# What an analysis reports

An analysis of a folder has a result, made from the graph of the survey. The candidates that are not
used are divided between the two lists of the result, and each unused one gets one command.
-/

namespace UnusedAssets

open Text

variable {p : Project} {s : Settings} {a : Analysis} {events : List Event} {path : String}

theorem Settings.isIgnored_eq_false_iff :
    s.isIgnored path = false ↔ ∀ pattern ∈ s.ignores, isIgnoredBy pattern path = false := by
  simp [isIgnored]

namespace Project

theorem exists_analyze (h : p.tree.isFolder p.cwd p.root = true) :
    ∃ a events, p.analyze s = .ok (a, events) := by
  simp [analyze, trace, h]

theorem isFolder_of_analyze (h : p.analyze s = .ok (a, events)) :
    p.tree.isFolder p.cwd p.root = true := by
  cases hf : p.tree.isFolder p.cwd p.root with
  | true => rfl
  | false =>
    rw [analyze, trace, hf] at h
    exact absurd h (by simp)

theorem graph_of_analyze (h : p.analyze s = .ok (a, events)) :
    a.graph = ((p.survey s).run ∅).graph := by
  have hf := isFolder_of_analyze h
  simp only [analyze, trace, hf, ↓reduceIte, Except.ok.injEq, Prod.mk.injEq] at h
  rw [← h.1]

theorem unused_of_analyze (h : p.analyze s = .ok (a, events)) :
    a.unused = a.graph.unused.filter fun path => !s.isIgnored path := by
  have hf := isFolder_of_analyze h
  simp only [analyze, trace, hf, ↓reduceIte, Except.ok.injEq, Prod.mk.injEq] at h
  rw [← h.1]

theorem ignored_of_analyze (h : p.analyze s = .ok (a, events)) :
    a.ignored = a.graph.unused.filter s.isIgnored := by
  have hf := isFolder_of_analyze h
  simp only [analyze, trace, hf, ↓reduceIte, Except.ok.injEq, Prod.mk.injEq] at h
  rw [← h.1]

theorem counts_of_analyze (h : p.analyze s = .ok (a, events)) :
    a.totalCandidates = a.graph.candidates.size ∧ a.usedCount = a.graph.used.size := by
  have hf := isFolder_of_analyze h
  simp only [analyze, trace, hf, ↓reduceIte, Except.ok.injEq, Prod.mk.injEq] at h
  obtain ⟨rfl, -⟩ := h
  simp only [and_self]

theorem mem_unused (h : p.analyze s = .ok (a, events)) : path ∈ a.unused ↔
    path ∈ a.graph.candidates ∧ path ∉ a.graph.used ∧ s.isIgnored path = false := by
  rw [unused_of_analyze h, List.mem_filter, UsageGraph.mem_unused, Bool.not_eq_true', and_assoc]

theorem mem_ignored (h : p.analyze s = .ok (a, events)) : path ∈ a.ignored ↔
    path ∈ a.graph.candidates ∧ path ∉ a.graph.used ∧ s.isIgnored path = true := by
  rw [ignored_of_analyze h, List.mem_filter, UsageGraph.mem_unused, and_assoc]

theorem mem_graph_candidates (h : p.analyze s = .ok (a, events)) : path ∈ a.graph.candidates ↔
    path ∈ p.candidates (Candidate.excludesWith s.excludes) := by
  rw [graph_of_analyze h, Survey.mem_candidates_run]
  exact or_iff_left UsageGraph.not_mem_candidates_empty

theorem hasFile_of_mem_candidates (h : p.analyze s = .ok (a, events))
    (hpath : path ∈ a.graph.candidates) : p.HasFile path :=
  (mem_candidates_iff.mp ((mem_graph_candidates h).mp hpath)).1

theorem hasFile_of_mem_unused (h : p.analyze s = .ok (a, events)) :
    ∀ path ∈ a.unused, p.HasFile path :=
  fun _ hpath => hasFile_of_mem_candidates h ((mem_unused h).mp hpath).1

theorem not_mem_unused_of_used (h : p.analyze s = .ok (a, events)) :
    ∀ path ∈ a.graph.used, path ∉ a.unused :=
  fun _ hused hmem => ((mem_unused h).mp hmem).2.1 hused

end Project

namespace RemovalCommand

theorem paths_all (unused : List String) (tracked : OrderedSet String) :
    (all unused tracked).map (·.path) = (OrderedSet.ofList unused).toList := by
  rw [all, List.map_map]
  exact List.map_id _

/-- The commands come in the order of the bytes of their paths. -/
theorem ascending_all (unused : List String) (tracked : OrderedSet String) :
    ((all unused tracked).map fun c => encode c.path).Pairwise (· < ·) := by
  have hmap : ((all unused tracked).map fun c => encode c.path) =
      (OrderedSet.ofList unused).toList.map encode := by
    rw [← paths_all unused tracked, List.map_map]
    rfl
  rw [hmap, List.pairwise_map]
  exact (OrderedSet.ofList unused).ascending.imp encode_lt_encode

end RemovalCommand

theorem Analysis.mem_removalCommands {reply : ListingReply} :
    path ∈ (a.removalCommands reply).map (·.path) ↔ path ∈ a.unused := by
  rw [removalCommands, RemovalCommand.paths_all, OrderedSet.mem_toList, OrderedSet.mem_ofList]

end UnusedAssets
