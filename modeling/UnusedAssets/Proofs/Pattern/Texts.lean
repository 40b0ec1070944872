import Mathlib.Data.List.Forall2
import UnusedAssets.Pattern.Basic

/-!
# The texts of a pattern

A piece stands for a set of texts and a pattern for the texts put together from those of its pieces,
each with the texts of its groups. A text begins with a match exactly if it begins with a text of the
pattern (`match?_eq_none_iff`), and what is matched is one of these (`takes_of_match?`). Which one, if
there are several, is a matter of preference. Each group is a text that its pieces take, and stands in
the match (`Takes.forall₂_groupPieces`).
-/

namespace UnusedAssets

open Text

namespace CharClass

variable {k : CharClass} {cs rest : List Char} {acc : List (List Char)}

theorem mem_runs_iff : rest ∈ k.runs acc cs ↔
    (∃ run, cs = run ++ rest ∧ ∀ c ∈ run, k.holds c = true) ∨ rest ∈ acc := by
  induction cs generalizing acc with
  | nil =>
    simp only [runs, List.mem_cons]
    refine or_congr_left ⟨fun h => ⟨[], by simp [h], by simp⟩, fun h => ?_⟩
    obtain ⟨run, hcs, -⟩ := h
    exact (List.append_eq_nil_iff.mp hcs.symm).2
  | cons c cs ih =>
    have hruns : (∃ run, c :: cs = run ++ rest ∧ ∀ d ∈ run, k.holds d = true) ↔
        rest = c :: cs ∨ k.holds c = true ∧
          ∃ run, cs = run ++ rest ∧ ∀ d ∈ run, k.holds d = true := by
      constructor
      · intro h
        obtain ⟨run, hcs, hall⟩ := h
        cases run with
        | nil => exact .inl hcs.symm
        | cons d run =>
          obtain ⟨rfl, rfl⟩ := List.cons.inj hcs
          rw [List.forall_mem_cons] at hall
          exact .inr ⟨hall.1, run, rfl, hall.2⟩
      · intro h
        rcases h with rfl | ⟨hc, run, rfl, hall⟩
        · exact ⟨[], rfl, by simp⟩
        · exact ⟨c :: run, rfl, List.forall_mem_cons.mpr ⟨hc, hall⟩⟩
    rw [hruns, runs]
    split
    · next hc =>
      rw [ih, List.mem_cons, or_left_comm, or_assoc]
      simp only [hc, true_and]
    · next hc => simp [hc]

theorem head?_runs : (k.runs acc cs).head? = some (cs.dropWhile k.holds) := by
  induction cs generalizing acc with
  | nil => rfl
  | cons c cs ih =>
    rw [runs, List.dropWhile_cons]
    split
    · exact ih
    · rfl

end CharClass

namespace Piece

def Takes : Piece → List Char → Prop
  | .literal t, w => w = t.toList
  | .choice ts, w => ∃ t ∈ ts, w = t.toList
  | .optional t, w => w = t.toList ∨ w = []
  | .single k, w => ∃ c, w = [c] ∧ k.holds c = true
  | .many k, w => ∀ c ∈ w, k.holds c = true
  | .some k, w => w ≠ [] ∧ ∀ c ∈ w, k.holds c = true

def TakeAll : List Piece → List Char → Prop
  | [], w => w = []
  | p :: ps, w => ∃ u v, w = u ++ v ∧ p.Takes u ∧ TakeAll ps v

variable {p : Piece} {ps : List Piece} {cs rest : List Char}

theorem takeAll_some_iff {k : CharClass} {w : List Char} :
    TakeAll [.some k] w ↔ w ≠ [] ∧ ∀ c ∈ w, k.holds c = true := by
  simp [TakeAll, Takes]

theorem mem_rests_iff : rest ∈ p.rests cs ↔ ∃ w, cs = w ++ rest ∧ p.Takes w := by
  cases p with
  | literal t => simp [rests, Takes, after?_eq_some_iff]
  | choice ts =>
    simp only [rests, Takes, List.mem_filterMap, after?_eq_some_iff]
    constructor
    · intro h
      obtain ⟨t, ht, rfl⟩ := h
      exact ⟨_, rfl, t, ht, rfl⟩
    · intro h
      obtain ⟨_, rfl, t, ht, rfl⟩ := h
      exact ⟨t, ht, rfl⟩
  | optional t =>
    simp only [rests, Takes, List.mem_append, Option.mem_toList, after?_eq_some_iff,
      List.mem_singleton, and_or_left, exists_or, exists_eq_right, List.nil_append]
    rw [eq_comm (a := rest)]
  | single k =>
    cases cs with
    | nil => simp [rests, Takes]
    | cons c cs =>
      simp only [rests, Takes]
      constructor
      · intro h
        split at h
        · next hc =>
          obtain rfl := List.mem_singleton.mp h
          exact ⟨[c], rfl, c, rfl, hc⟩
        · exact absurd h List.not_mem_nil
      · intro h
        obtain ⟨_, hcs, d, rfl, hd⟩ := h
        obtain ⟨rfl, rfl⟩ := List.cons.inj hcs
        simp [hd]
  | many k => simp [rests, Takes, CharClass.mem_runs_iff]
  | some k =>
    cases cs with
    | nil => simp +contextual [rests, Takes]
    | cons c cs =>
      simp only [rests, Takes]
      constructor
      · intro h
        split at h
        · next hc =>
          simp only [CharClass.mem_runs_iff, List.not_mem_nil, or_false] at h
          obtain ⟨run, rfl, hrun⟩ := h
          exact ⟨c :: run, rfl, by simp, List.forall_mem_cons.mpr ⟨hc, hrun⟩⟩
        · exact absurd h List.not_mem_nil
      · intro h
        obtain ⟨w, hcs, hne, hall⟩ := h
        obtain ⟨d, run, rfl⟩ := List.exists_cons_of_ne_nil hne
        obtain ⟨rfl, rfl⟩ := List.cons.inj hcs
        rw [List.forall_mem_cons] at hall
        rw [if_pos hall.1]
        exact CharClass.mem_runs_iff.mpr (.inl ⟨run, rfl, hall.2⟩)

theorem mem_restsOfAll_iff :
    rest ∈ restsOfAll ps cs ↔ ∃ w, cs = w ++ rest ∧ TakeAll ps w := by
  induction ps generalizing cs with
  | nil => simp [restsOfAll, TakeAll, eq_comm]
  | cons p ps ih =>
    rw [restsOfAll, List.mem_flatMap]
    simp only [mem_rests_iff, ih, TakeAll]
    constructor
    · intro h
      obtain ⟨_, ⟨u, rfl, hu⟩, v, rfl, hv⟩ := h
      exact ⟨u ++ v, (List.append_assoc _ _ _).symm, u, v, rfl, hu, hv⟩
    · intro h
      obtain ⟨_, rfl, u, v, rfl, hu, hv⟩ := h
      exact ⟨v ++ rest, ⟨u, List.append_assoc _ _ _, hu⟩, v, rfl, hv⟩

end Piece

namespace Pattern

/-- A pattern can take a text, with these texts in its groups. -/
def Takes : Pattern → List Char → List String → Prop
  | [], w, groups => w = [] ∧ groups = []
  | .piece p :: more, w, groups => ∃ u v, w = u ++ v ∧ p.Takes u ∧ Takes more v groups
  | .group ps :: more, w, groups =>
    ∃ u v others, w = u ++ v ∧ Piece.TakeAll ps u ∧ Takes more v others ∧
      groups = String.ofList u :: others

variable {p : Pattern} {w cs rest : List Char} {groups : List String}
  {m : List String × List Char}

theorem taken_append (w rest : List Char) : taken (w ++ rest) rest = String.ofList w := by
  simp [taken]

theorem takes_of_match? (h : p.match? cs = some (groups, rest)) :
    ∃ w, cs = w ++ rest ∧ p.Takes w groups := by
  induction p generalizing cs groups with
  | nil =>
    obtain ⟨rfl, rfl⟩ := Prod.mk.inj (Option.some.inj h)
    exact ⟨[], rfl, rfl, rfl⟩
  | cons element more ih =>
    cases element with
    | piece p =>
      obtain ⟨between, hmem, hm⟩ := List.exists_of_findSome?_eq_some h
      obtain ⟨u, rfl, hu⟩ := Piece.mem_rests_iff.mp hmem
      obtain ⟨v, rfl, hv⟩ := ih hm
      exact ⟨u ++ v, (List.append_assoc _ _ _).symm, u, v, rfl, hu, hv⟩
    | group ps =>
      obtain ⟨between, hmem, hm⟩ := List.exists_of_findSome?_eq_some h
      obtain ⟨u, rfl, hu⟩ := Piece.mem_restsOfAll_iff.mp hmem
      obtain ⟨⟨others, _⟩, hmore, heq⟩ := Option.map_eq_some_iff.mp hm
      obtain ⟨rfl, rfl⟩ := Prod.mk.inj heq
      obtain ⟨v, rfl, hv⟩ := ih hmore
      exact ⟨u ++ v, (List.append_assoc _ _ _).symm, u, v, others, rfl, hu, hv,
        by rw [taken_append]⟩

def groupPieces : Pattern → List (List Piece)
  | [] => []
  | .piece _ :: more => groupPieces more
  | .group ps :: more => ps :: groupPieces more

theorem Takes.forall₂_groupPieces (h : p.Takes w groups) : List.Forall₂
    (fun ps s => Piece.TakeAll ps s.toList ∧ s.toList <:+: w) p.groupPieces groups := by
  induction p generalizing w groups with
  | nil =>
    obtain ⟨-, rfl⟩ := h
    exact .nil
  | cons element more ih =>
    cases element with
    | piece p =>
      obtain ⟨u, v, rfl, -, hv⟩ := h
      exact (ih hv).imp fun ps s hs => ⟨hs.1, hs.2.trans (List.suffix_append u v).isInfix⟩
    | group ps =>
      obtain ⟨u, v, others, rfl, hu, hv, rfl⟩ := h
      refine .cons ⟨by rwa [String.toList_ofList], ?_⟩ ((ih hv).imp fun ps s hs =>
        ⟨hs.1, hs.2.trans (List.suffix_append u v).isInfix⟩)
      rw [String.toList_ofList]
      exact (List.prefix_append u v).isInfix

theorem exists_match?_of_takes (h : p.Takes w groups) (rest : List Char) :
    ∃ m, p.match? (w ++ rest) = some m := by
  induction p generalizing w groups with
  | nil =>
    obtain ⟨rfl, -⟩ := h
    exact ⟨_, rfl⟩
  | cons element more ih =>
    simp only [← Option.isSome_iff_exists] at ih ⊢
    cases element with
    | piece p =>
      obtain ⟨u, v, rfl, hu, hv⟩ := h
      rw [match?, List.findSome?_isSome_iff]
      exact ⟨v ++ rest, Piece.mem_rests_iff.mpr ⟨u, List.append_assoc _ _ _, hu⟩, ih hv⟩
    | group ps =>
      obtain ⟨u, v, others, rfl, hu, hv, -⟩ := h
      rw [match?, List.findSome?_isSome_iff]
      refine ⟨v ++ rest, Piece.mem_restsOfAll_iff.mpr ⟨u, List.append_assoc _ _ _, hu⟩, ?_⟩
      rw [Option.isSome_map]
      exact ih hv

theorem match?_eq_none_iff :
    p.match? cs = none ↔ ∀ w rest groups, cs = w ++ rest → ¬ p.Takes w groups := by
  constructor
  · rintro h w rest groups rfl htakes
    obtain ⟨m, hm⟩ := exists_match?_of_takes htakes rest
    rw [hm] at h
    exact absurd h (by simp)
  · intro h
    cases hm : p.match? cs with
    | none => rfl
    | some m =>
      obtain ⟨w, hcs, htakes⟩ := takes_of_match? hm
      exact absurd htakes (h w m.2 m.1 hcs)

end Pattern

end UnusedAssets
