/-!
# Fields of a text

Cutting a list at every separator and putting the fields together again. `between_fields` says that
nothing is lost, and `not_mem_of_mem_fields` that no field holds the separator.
-/

namespace UnusedAssets.Text

section Lists

variable {α : Type} [DecidableEq α]

/-- The maximal parts of a list that hold no separator, in order; empty parts are kept. -/
def fields (sep : α) : List α → List (List α)
  | [] => [[]]
  | x :: xs =>
    if x = sep then [] :: fields sep xs
    else match fields sep xs with
      | [] => [[x]]
      | f :: fs => (x :: f) :: fs

/-- The parts of a list, one separator between any two. -/
def between (sep : α) : List (List α) → List α
  | [] => []
  | [f] => f
  | f :: g :: fs => f ++ sep :: between sep (g :: fs)

theorem fields_ne_nil (sep : α) (xs : List α) : fields sep xs ≠ [] := by
  cases xs with
  | nil => simp [fields]
  | cons x xs =>
    unfold fields
    split
    · simp
    · split <;> simp

theorem between_fields (sep : α) (xs : List α) : between sep (fields sep xs) = xs := by
  induction xs with
  | nil => rfl
  | cons x xs ih =>
    unfold fields
    split
    · next h =>
      cases hf : fields sep xs with
      | nil => exact absurd hf (fields_ne_nil sep xs)
      | cons f fs => rw [hf] at ih; simp [between, ih, h]
    · split
      · next hf => exact absurd hf (fields_ne_nil sep xs)
      · next f fs hf =>
        rw [hf] at ih
        cases fs with
        | nil => simpa [between] using ih
        | cons g gs => simpa [between] using ih

theorem not_mem_of_mem_fields {sep : α} {xs f : List α} (h : f ∈ fields sep xs) : sep ∉ f := by
  induction xs generalizing f with
  | nil =>
    simp only [fields, List.mem_singleton] at h
    simp [h]
  | cons x xs ih =>
    unfold fields at h
    split at h
    · rcases List.mem_cons.mp h with rfl | h
      · simp
      · exact ih h
    · next hx =>
      split at h
      · next hf => exact absurd hf (fields_ne_nil sep xs)
      · next g gs hf =>
        rcases List.mem_cons.mp h with rfl | h
        · have := ih (f := g) (by simp [hf])
          simp [this, Ne.symm hx]
        · exact ih (by simp [hf, h])

end Lists

def split (s : String) (sep : Char) : List String :=
  (fields sep s.toList).map String.ofList

/-- The texts one after the other, `sep` between any two. -/
def joinWith (sep : String) : List String → String
  | [] => ""
  | [s] => s
  | s :: t :: rest => s ++ sep ++ joinWith sep (t :: rest)

def substitute (s : String) (c : Char) (text : String) : String :=
  String.ofList (s.toList.flatMap fun d => if d = c then text.toList else [d])

def repeated (s : String) (n : Nat) : String := String.join (List.replicate n s)

end UnusedAssets.Text
