import Mathlib.Data.List.Basic
import UnusedAssets.Proofs.Pattern.Texts
import UnusedAssets.Proofs.Text.Runs

/-!
# Which match is preferred

If a pattern can take several texts, its match is the one that its pieces prefer, the first piece
before the others. A repetition prefers the longest run (`match?_many`, `match?_group_run`), and one
that a text has to follow the longest run before this text (`match?_group_run_literal`).
-/

namespace UnusedAssets

open Text

variable {k : CharClass} {c : Char} {cs rest run : List Char} {acc : List (List Char)}

namespace CharClass

theorem head?_runs_run (hrun : ∀ c ∈ run, k.holds c = true)
    (hrest : ∀ c ∈ rest.head?, k.holds c = false) :
    (k.runs acc (run ++ rest)).head? = some rest := by
  rw [head?_runs, dropWhile_run hrun hrest]

theorem runs_append (acc : List (List Char)) (cs : List Char)
    (hrun : ∀ c ∈ run, k.holds c = true) :
    ∃ shorter, k.runs acc (run ++ cs) = k.runs shorter cs := by
  induction run generalizing acc with
  | nil => exact ⟨acc, rfl⟩
  | cons c run ih =>
    rw [List.forall_mem_cons] at hrun
    obtain ⟨shorter, hshorter⟩ := ih ((c :: (run ++ cs)) :: acc) hrun.2
    exact ⟨shorter, by rw [List.cons_append, runs, if_pos hrun.1, hshorter]⟩

theorem exists_runs_eq (k : CharClass) (acc : List (List Char)) (cs : List Char) :
    ∃ longer, k.runs acc cs = longer ++ cs :: acc ∧
      ∀ r ∈ longer, ∃ x, x ≠ [] ∧ (∀ c ∈ x, k.holds c = true) ∧ cs = x ++ r := by
  induction cs generalizing acc with
  | nil => exact ⟨[], rfl, by simp⟩
  | cons c cs ih =>
    by_cases hc : k.holds c = true
    · obtain ⟨longer, hlonger, hall⟩ := ih ((c :: cs) :: acc)
      refine ⟨longer ++ [cs], by rw [runs, if_pos hc, hlonger]; simp, fun r hr => ?_⟩
      rcases List.mem_append.mp hr with hr | hr
      · obtain ⟨x, -, hx, rfl⟩ := hall r hr
        exact ⟨c :: x, by simp, List.forall_mem_cons.mpr ⟨hc, hx⟩, rfl⟩
      · obtain rfl := List.mem_singleton.mp hr
        exact ⟨[c], by simp, by simpa using hc, rfl⟩
    · exact ⟨[], by rw [runs, if_neg hc]; rfl, by simp⟩

end CharClass

namespace Pattern

variable {p : Piece} {ps : List Piece} {more : Pattern} {t : String}
  {m : List String × List Char} {others : List String} {left : List Char}

theorem match?_piece_of_head (hhead : (p.rests cs).head? = some rest)
    (h : more.match? rest = some m) : match? (.piece p :: more) cs = some m := by
  obtain ⟨shorter, hrests⟩ := List.head?_eq_some_iff.mp hhead
  rw [match?, hrests, List.findSome?_cons, h]

theorem match?_group_of_head (hhead : (Piece.restsOfAll ps cs).head? = some rest)
    (h : more.match? rest = some (others, left)) :
    match? (.group ps :: more) cs = some (taken cs rest :: others, left) := by
  obtain ⟨shorter, hrests⟩ := List.head?_eq_some_iff.mp hhead
  rw [match?, hrests, List.findSome?_cons, h, Option.map_some]

theorem match?_literal (t : String) (more : Pattern) (cs : List Char) :
    match? (.piece (.literal t) :: more) (t.toList ++ cs) = more.match? cs := by
  rw [match?, Piece.rests, after?_append, Option.toList_some, List.findSome?_singleton]

theorem match?_single (hc : k.holds c = true) (more : Pattern) (cs : List Char) :
    match? (.piece (.single k) :: more) (c :: cs) = more.match? cs := by
  rw [match?, Piece.rests, if_pos hc, List.findSome?_singleton]

theorem match?_single_of_not (hc : k.holds c = false) (more : Pattern) (cs : List Char) :
    match? (.piece (.single k) :: more) (c :: cs) = none := by
  rw [match?, Piece.rests, if_neg (by simp [hc]), List.findSome?_nil]

theorem match?_optional (h : more.match? cs = some m) :
    match? (.piece (.optional t) :: more) (t.toList ++ cs) = some m :=
  match?_piece_of_head (by rw [Piece.rests, after?_append]; rfl) h

theorem match?_optional_of_not (h : after? t.toList cs = none) :
    match? (.piece (.optional t) :: more) cs = more.match? cs := by
  rw [match?, Piece.rests, h, Option.toList_none, List.nil_append, List.findSome?_singleton]

theorem match?_optional_of_none (h : more.match? cs = none) :
    match? (.piece (.optional t) :: more) (t.toList ++ cs) = more.match? (t.toList ++ cs) := by
  rw [match?, Piece.rests, after?_append, Option.toList_some, List.singleton_append,
    List.findSome?_cons, h, List.findSome?_singleton]

theorem match?_many (hrun : ∀ c ∈ run, k.holds c = true)
    (hrest : ∀ c ∈ rest.head?, k.holds c = false) (h : more.match? rest = some m) :
    match? (.piece (.many k) :: more) (run ++ rest) = some m :=
  match?_piece_of_head (CharClass.head?_runs_run hrun hrest) h

theorem head?_rests_some (hne : run ≠ []) (hrun : ∀ c ∈ run, k.holds c = true)
    (hrest : ∀ c ∈ rest.head?, k.holds c = false) :
    ((Piece.some k).rests (run ++ rest)).head? = some rest := by
  obtain ⟨c, run, rfl⟩ := List.exists_cons_of_ne_nil hne
  rw [List.forall_mem_cons] at hrun
  rw [List.cons_append, Piece.rests, if_pos hrun.1]
  exact CharClass.head?_runs_run hrun.2 hrest

theorem match?_some (hne : run ≠ []) (hrun : ∀ c ∈ run, k.holds c = true)
    (hrest : ∀ c ∈ rest.head?, k.holds c = false) (h : more.match? rest = some m) :
    match? (.piece (.some k) :: more) (run ++ rest) = some m :=
  match?_piece_of_head (head?_rests_some hne hrun hrest) h

theorem match?_group_run (hne : run ≠ []) (hrun : ∀ c ∈ run, k.holds c = true)
    (hrest : ∀ c ∈ rest.head?, k.holds c = false) (h : more.match? rest = some (others, left)) :
    match? (.group [.some k] :: more) (run ++ rest) =
      some (String.ofList run :: others, left) := by
  have hhead : (Piece.restsOfAll [.some k] (run ++ rest)).head? = some rest := by
    simpa [Piece.restsOfAll] using head?_rests_some hne hrun hrest
  rw [match?_group_of_head hhead h, taken_append]

theorem match?_group_run_of_not (hc : k.holds c = false) :
    match? (.group [.some k] :: more) (c :: cs) = none := by
  simp [match?, Piece.restsOfAll, Piece.rests, hc]

theorem restsOfAll_run_literal (k : CharClass) (t : String) (cs : List Char) :
    Piece.restsOfAll [.some k, .literal t] cs =
      ((Piece.some k).rests cs).filterMap (after? t.toList) := by
  simp only [Piece.restsOfAll, Piece.rests.eq_1, List.flatMap_singleton',
    List.filterMap_eq_flatMap_toList]

theorem match?_group_run_literal (hne : run ≠ []) (hrun : ∀ c ∈ run, k.holds c = true)
    (hlast : ∀ x y, x ≠ [] → (∀ c ∈ x, k.holds c = true) → t.toList ++ rest = x ++ y →
      after? t.toList y = none)
    (h : more.match? rest = some (others, left)) :
    match? (.group [.some k, .literal t] :: more) (run ++ (t.toList ++ rest)) =
      some (String.ofList (run ++ t.toList) :: others, left) := by
  obtain ⟨c, run, rfl⟩ := List.exists_cons_of_ne_nil hne
  rw [List.forall_mem_cons] at hrun
  obtain ⟨shorter, hshorter⟩ := CharClass.runs_append [] (t.toList ++ rest) hrun.2
  obtain ⟨longer, hruns, hlonger⟩ := k.exists_runs_eq shorter (t.toList ++ rest)
  have hrests : (Piece.some k).rests (c :: run ++ (t.toList ++ rest)) =
      longer ++ (t.toList ++ rest) :: shorter := by
    rw [List.cons_append, Piece.rests, if_pos hrun.1, hshorter, hruns]
  have hnone : longer.findSome? (after? t.toList) = none := by
    refine List.findSome?_eq_none_iff.mpr fun r hr => ?_
    obtain ⟨x, hx, hall, hsplit⟩ := hlonger r hr
    exact hlast x r hx hall hsplit
  have hhead : (Piece.restsOfAll [.some k, .literal t] (c :: run ++ (t.toList ++ rest))).head? =
      some rest := by
    rw [restsOfAll_run_literal, List.head?_filterMap, hrests, List.findSome?_append, hnone,
      Option.none_or, List.findSome?_cons, after?_append]
  rw [match?_group_of_head hhead h, ← List.append_assoc, taken_append]

end Pattern

end UnusedAssets
