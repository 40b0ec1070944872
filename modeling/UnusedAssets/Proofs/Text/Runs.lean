import Mathlib.Data.List.TakeWhile

/-!
# Runs in a text

A text that begins with a run of characters of some sort and goes on with another does so in one way
only (`run_inj`). What begins with a character that the lead of a text does not hold begins behind the
lead (`exists_of_begins_behind`); in a text of three parts, a lead, a run and an end, it begins in the
run if the end does not hold the character either (`exists_of_begins_inside`).
-/

namespace UnusedAssets.Text

variable {α : Type} {p : α → Bool} {run run' rest rest' : List α} {a b : α}

theorem takeWhile_run (hrun : ∀ a ∈ run, p a = true) (hrest : ∀ a ∈ rest.head?, p a = false) :
    (run ++ rest).takeWhile p = run := by
  rw [List.takeWhile_append_of_pos hrun]
  cases rest with
  | nil => simp
  | cons a rest => rw [List.takeWhile_cons_of_neg (by simp [hrest a rfl]), List.append_nil]

theorem dropWhile_run (hrun : ∀ a ∈ run, p a = true) (hrest : ∀ a ∈ rest.head?, p a = false) :
    (run ++ rest).dropWhile p = rest := by
  rw [List.dropWhile_append_of_pos hrun]
  cases rest with
  | nil => rfl
  | cons a rest => rw [List.dropWhile_cons_of_neg (by simp [hrest a rfl])]

theorem exists_run (p : α → Bool) (xs : List α) : ∃ run rest, xs = run ++ rest ∧
    (∀ a ∈ run, p a = true) ∧ ∀ a ∈ rest.head?, p a = false := by
  refine ⟨xs.takeWhile p, xs.dropWhile p, (List.takeWhile_append_dropWhile).symm,
    fun a ha => List.mem_takeWhile_imp ha, fun a ha => ?_⟩
  have hhead := List.head?_dropWhile_not p xs
  rw [Option.mem_def.mp ha] at hhead
  simpa using hhead

theorem run_inj (h : run ++ rest = run' ++ rest')
    (hrun : ∀ a ∈ run, p a = true) (hrest : ∀ a ∈ rest.head?, p a = false)
    (hrun' : ∀ a ∈ run', p a = true) (hrest' : ∀ a ∈ rest'.head?, p a = false) :
    run = run' ∧ rest = rest' := by
  have hsame : run = run' := by
    rw [← takeWhile_run hrun hrest, h, takeWhile_run hrun' hrest']
  subst hsame
  exact ⟨rfl, List.append_cancel_left h⟩

theorem run_cons_inj (h : run ++ a :: rest = run' ++ b :: rest')
    (hrun : ∀ c ∈ run, p c = true) (ha : p a = false)
    (hrun' : ∀ c ∈ run', p c = true) (hb : p b = false) :
    run = run' ∧ a = b ∧ rest = rest' := by
  obtain ⟨hsame, hcons⟩ := run_inj h hrun (by simpa using ha) hrun' (by simpa using hb)
  exact ⟨hsame, List.cons.inj hcons⟩

theorem prefix_of_run (h : run ++ rest = run' ++ rest') (hrun : ∀ a ∈ run, p a = true)
    (hrest' : ∀ a ∈ rest'.head?, p a = false) : run <+: run' := by
  rcases List.append_eq_append_iff.mp h with ⟨l, hl, -⟩ | ⟨l, hl, hrest⟩
  · exact ⟨l, hl.symm⟩
  · cases l with
    | nil => exact ⟨[], by simp [hl]⟩
    | cons a l =>
      have ha : p a = true := hrun a (hl ▸ List.mem_append_right run' List.mem_cons_self)
      rw [hrest' a (by simp [hrest])] at ha
      exact absurd ha (by decide)

theorem exists_of_begins_behind {lead tail u v : List α} (h : u ++ a :: v = lead ++ tail)
    (ha : a ∉ lead) : ∃ l, u = lead ++ l ∧ tail = l ++ a :: v := by
  rcases List.append_eq_append_iff.mp h with ⟨l, hl, hv⟩ | ⟨l, hl, htail⟩
  · cases l with
    | nil => exact ⟨[], by simp [hl], hv.symm⟩
    | cons b l =>
      obtain rfl := (List.cons.inj hv).1
      exact absurd (hl ▸ List.mem_append_right u List.mem_cons_self) ha
  · exact ⟨l, hl, htail⟩

theorem exists_of_begins_inside (lead : List α) {u v : List α} {d : α}
    (h : u ++ a :: v = d :: (lead ++ (run ++ [b]))) (hu : u ≠ []) (hlead : a ∉ lead)
    (hb : a ≠ b) : ∃ l r, run = l ++ r ∧ a :: v = r ++ [b] := by
  obtain ⟨e, u, rfl⟩ := List.exists_cons_of_ne_nil hu
  have hinside : u ++ a :: v = lead ++ (run ++ [b]) := (List.cons.inj h).2
  obtain ⟨l, -, hl⟩ := exists_of_begins_behind hinside hlead
  rcases List.append_eq_append_iff.mp hl with ⟨r, -, hr⟩ | ⟨r, hrun, hr⟩
  · cases r with
    | nil => exact absurd (List.cons.inj hr).1.symm hb
    | cons c r => simp at hr
  · exact ⟨l, r, hrun, hr⟩

end UnusedAssets.Text
