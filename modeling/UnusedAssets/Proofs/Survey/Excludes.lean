import UnusedAssets.Proofs.Candidate.Excludes
import UnusedAssets.Proofs.Survey.PhaseOrder

/-!
# Surveys with more exclusions

A survey asks for the exclusions only when it lists the candidates. So two surveys of a project with
different exclusions mark the same files and find the same references, and if one has more of them,
its candidates and unused files are those of the other without what begins so
(`run_of_more_excludes`).
-/

namespace UnusedAssets.Survey

open Candidate

variable {p : Project} {g : UsageGraph} {excludes excludes' more : List String} {phase : Phase}

theorem counters_of_not_enumeration (h : phase ≠ .enumeration) (marked : List Visit) :
    counters ⟨p, excludes⟩ phase marked = counters ⟨p, excludes'⟩ phase marked := by
  cases phase with
  | enumeration => exact absurd rfl h
  | routes | controllers | templates | assets => rfl

theorem work_congr (h : ∀ e, e ∈ excludes ↔ e ∈ excludes') :
    work ⟨p, excludes⟩ phase g = work ⟨p, excludes'⟩ phase g := by
  cases phase with
  | routes | controllers | templates | assets => rfl
  | enumeration =>
    simp only [work, candidateEvents, Project.candidates_congr h, Project.unopened_congr h]

/-- Which exclusions there are is all that a survey asks of them. -/
theorem run_of_same_excludes (h : ∀ e, e ∈ excludes ↔ e ∈ excludes') :
    run ⟨p, excludes⟩ g = run ⟨p, excludes'⟩ g := by
  have hstep : Findings.andRun ⟨p, excludes⟩ = Findings.andRun ⟨p, excludes'⟩ := by
    funext before phase
    simp only [Findings.andRun, runPhase, work_congr h]
  rw [run, run, hstep]

/-- A survey with more extra exclusions differs in the candidates only: those go that begin with what
is added. -/
theorem run_of_more_excludes (p : Project) (extra more : List String) :
    let base := run ⟨p, excludesWith extra⟩ ∅
    let narrowed := run ⟨p, excludesWith (extra ++ more)⟩ ∅
    let added (path : String) : Bool := isExcluded (contributed more) path
    (∀ e, e ∈ excludesWith (extra ++ more) ↔ e ∈ excludesWith extra ∨ e ∈ contributed more) ∧
      narrowed.graph.used = base.graph.used ∧ narrowed.graph.edges = base.graph.edges ∧
      narrowed.graph.unresolved = base.graph.unresolved ∧
      narrowed.stats.take 4 = base.stats.take 4 ∧
      (base.stats.take 4).map (·.phase) = [.routes, .controllers, .templates, .assets] ∧
      narrowed.graph.candidates = base.graph.candidates.filter (fun path => !added path) ∧
      narrowed.graph.unused = base.graph.unused.filter (fun path => !added path) := by
  intro base narrowed added
  have hexcludes (e : String) : e ∈ excludesWith (extra ++ more) ↔
      e ∈ excludesWith extra ∨ e ∈ contributed more := by
    rw [mem_excludesWith_iff, mem_excludesWith_iff, mem_contributed_append, or_assoc]
  have hused : narrowed.graph.used = base.graph.used := by
    rw [graph_run, graph_run, used_withCandidates, used_withCandidates]
  have hcandidates : narrowed.graph.candidates =
      base.graph.candidates.filter fun path => !added path := by
    refine OrderedSet.ext_mem fun path => ?_
    rw [OrderedSet.mem_filter, mem_candidates_run, mem_candidates_run,
      Project.candidates_of_more hexcludes, List.mem_filter]
    simp only [UsageGraph.not_mem_candidates_empty, or_false, added]
  refine ⟨hexcludes, hused, ?_, ?_, ?_, ?_, hcandidates, ?_⟩
  · rw [edges_run, edges_run]
  · rw [unresolved_run, unresolved_run]
  · have hfirst : ∀ phase ∈ Phase.all.take 4, phase ≠ .enumeration := by decide
    rw [stats_run, stats_run, ← List.map_take, ← List.map_take]
    exact List.map_congr_left fun phase hphase =>
      counters_of_not_enumeration (hfirst phase hphase) _
  · rw [stats_run, ← List.map_take, List.map_map]
    exact List.map_id _
  · rw [UsageGraph.unused, UsageGraph.unused, hused, hcandidates]
    exact List.filter_comm _ _ _

end UnusedAssets.Survey
