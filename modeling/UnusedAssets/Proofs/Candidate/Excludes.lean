import UnusedAssets.Proofs.Candidate
import UnusedAssets.Proofs.Text.ByteOrder

/-!
# Exclusions and candidates

Only which exclusions there are matters, not their order (`candidates_congr`), and one more takes the
candidates away that begin with it, whatever was excluded before (`candidates_of_more`). The extra
exclusions add their normal forms to the fixed ones (`mem_excludesWith_iff`).
-/

namespace UnusedAssets

open Text FileTree

namespace Candidate

variable {excludes excludes' more extra : List String} {e path : String}

/-- The exclusions that extra ones stand for. -/
def contributed (extra : List String) : List String := extra.filterMap normalExclude?

theorem mem_addExclude_iff {all : List String} {x : String} :
    e ∈ addExclude all x ↔ e ∈ all ∨ normalExclude? x = some e := by
  unfold addExclude
  split
  · next hnone => simp [hnone]
  · next new hnew =>
    rw [hnew, Option.some.injEq]
    split
    · next hold =>
      exact (or_iff_left_of_imp fun heq => heq ▸ hold).symm
    · rw [List.mem_append, List.mem_singleton, eq_comm (a := e)]

theorem mem_foldl_addExclude_iff {all : List String} :
    e ∈ extra.foldl addExclude all ↔ e ∈ all ∨ e ∈ contributed extra := by
  induction extra generalizing all with
  | nil => simp [contributed]
  | cons x extra ih =>
    rw [List.foldl_cons, ih, mem_addExclude_iff, or_assoc]
    refine or_congr_right ?_
    simp [contributed]

theorem mem_excludesWith_iff :
    e ∈ excludesWith extra ↔ e ∈ fixedExcludes ∨ e ∈ contributed extra :=
  mem_foldl_addExclude_iff

theorem mem_contributed_append :
    e ∈ contributed (extra ++ more) ↔ e ∈ contributed extra ∨ e ∈ contributed more := by
  rw [contributed, List.filterMap_append, List.mem_append]
  rfl

theorem isExcluded_congr (h : ∀ e, e ∈ excludes ↔ e ∈ excludes') :
    isExcluded excludes path = isExcluded excludes' path := by
  rw [Bool.eq_iff_iff, isExcluded, isExcluded, List.any_eq_true, List.any_eq_true]
  simp only [h]

end Candidate

open Candidate

namespace Project

variable {p : Project} {excludes excludes' more : List String}

theorem candidates_congr (h : ∀ e, e ∈ excludes ↔ e ∈ excludes') :
    p.candidates excludes = p.candidates excludes' := by
  have hexcluded : isExcluded excludes = isExcluded excludes' :=
    funext fun _ => isExcluded_congr h
  rw [candidates_eq, candidates_eq, namedCandidates, namedCandidates, hexcluded]

theorem candidates_of_more (h : ∀ e, e ∈ excludes' ↔ e ∈ excludes ∨ e ∈ more) :
    p.candidates excludes' = (p.candidates excludes).filter fun path => !isExcluded more path := by
  have hexcluded (path : String) :
      isExcluded excludes' path = (isExcluded excludes path || isExcluded more path) := by
    rw [Bool.eq_iff_iff, Bool.or_eq_true, isExcluded, isExcluded, isExcluded, List.any_eq_true,
      List.any_eq_true, List.any_eq_true]
    simp only [h, or_and_right, exists_or]
  rw [candidates_eq, candidates_eq, namedCandidates, namedCandidates, filter_sorted,
    List.filter_filter]
  congr 1
  refine List.filter_congr fun path _ => ?_
  rw [hexcluded, Bool.not_or]
  ac_rfl

theorem unopened_congr (h : ∀ e, e ∈ excludes ↔ e ∈ excludes') :
    p.unopened excludes = p.unopened excludes' := by
  have hentered : isEntered p excludes = isEntered p excludes' := by
    funext folder
    unfold isEntered
    split
    · rfl
    · rw [isExcluded_congr h]
  have hreached : isReached p excludes = isReached p excludes' := by
    funext names
    rw [isReached, isReached, hentered]
  rw [unopened, unopened, hentered, hreached]

end Project

end UnusedAssets
