/-!
# Finite sets as ascending lists

A set is kept as the list of its elements in strictly ascending order. Two sets with the same
elements are therefore equal (`OrderedSet.ext_mem`), whatever order they were built in.
-/

namespace UnusedAssets

open Std

/-- A finite set, its elements listed in strictly ascending order. -/
structure OrderedSet (α : Type) [Ord α] where
  toList : List α
  ascending : toList.Pairwise (fun a b => compare a b = .lt) := by exact .nil

namespace OrderedSet

variable {α : Type} [Ord α]

/-- `x` put in its place in an ascending list, unless it is there. -/
def insertInto (x : α) : List α → List α
  | [] => [x]
  | y :: ys =>
    match compare x y with
    | .lt => x :: y :: ys
    | .eq => y :: ys
    | .gt => y :: insertInto x ys

section Laws

variable [TransOrd α] [LawfulEqOrd α]

omit [LawfulEqOrd α] in
theorem ne_of_compare_lt {a b : α} (h : compare a b = .lt) : a ≠ b := by
  rintro rfl
  rw [ReflOrd.compare_self] at h
  exact absurd h (by decide)

omit [TransOrd α] in
theorem mem_insertInto {x z : α} {ys : List α} : z ∈ insertInto x ys ↔ z = x ∨ z ∈ ys := by
  induction ys with
  | nil => simp [insertInto]
  | cons y ys ih =>
    unfold insertInto
    split
    · simp
    · next h =>
      have : x = y := LawfulEqOrd.eq_of_compare h
      subst this; simp
    · simp only [List.mem_cons, ih]
      constructor
      · rintro (h | h | h) <;> simp [h]
      · rintro (h | h | h) <;> simp [h]

theorem ascending_insertInto {x : α} {ys : List α}
    (h : ys.Pairwise (fun a b => compare a b = .lt)) :
    (insertInto x ys).Pairwise (fun a b => compare a b = .lt) := by
  induction ys with
  | nil => simp [insertInto]
  | cons y ys ih =>
    have hy := List.pairwise_cons.mp h
    unfold insertInto
    split
    · next hxy =>
      refine List.pairwise_cons.mpr ⟨?_, h⟩
      intro z hz
      rcases List.mem_cons.mp hz with rfl | hz
      · exact hxy
      · exact TransCmp.lt_trans hxy (hy.1 z hz)
    · exact h
    · next hxy =>
      refine List.pairwise_cons.mpr ⟨?_, ih hy.2⟩
      intro z hz
      rcases mem_insertInto.mp hz with rfl | hz
      · exact OrientedCmp.lt_of_gt hxy
      · exact hy.1 z hz

end Laws

def empty : OrderedSet α := ⟨[], .nil⟩

instance : EmptyCollection (OrderedSet α) := ⟨empty⟩

instance : Inhabited (OrderedSet α) := ⟨∅⟩

def size (s : OrderedSet α) : Nat := s.toList.length

def contains [DecidableEq α] (s : OrderedSet α) (x : α) : Bool := decide (x ∈ s.toList)

instance : Membership α (OrderedSet α) := ⟨fun s x => x ∈ s.toList⟩

def filter (p : α → Bool) (s : OrderedSet α) : OrderedSet α :=
  ⟨s.toList.filter p, s.ascending.filter p⟩

variable [TransOrd α] [LawfulEqOrd α]

def insert (x : α) (s : OrderedSet α) : OrderedSet α :=
  ⟨insertInto x s.toList, ascending_insertInto s.ascending⟩

def ofList (xs : List α) : OrderedSet α := xs.foldr insert ∅

omit [TransOrd α] [LawfulEqOrd α] in
@[simp] theorem mem_toList {s : OrderedSet α} {x : α} : x ∈ s.toList ↔ x ∈ s := Iff.rfl

omit [TransOrd α] [LawfulEqOrd α] in
theorem contains_iff [DecidableEq α] {s : OrderedSet α} {x : α} :
    s.contains x = true ↔ x ∈ s := by simp [contains]

omit [TransOrd α] [LawfulEqOrd α] in
@[simp] theorem not_mem_empty {x : α} : x ∉ (∅ : OrderedSet α) := List.not_mem_nil

theorem mem_insert {s : OrderedSet α} {x z : α} : z ∈ s.insert x ↔ z = x ∨ z ∈ s :=
  mem_insertInto

omit [TransOrd α] [LawfulEqOrd α] in
theorem mem_filter {s : OrderedSet α} {p : α → Bool} {z : α} :
    z ∈ s.filter p ↔ z ∈ s ∧ p z = true := List.mem_filter

theorem mem_ofList {xs : List α} {z : α} : z ∈ ofList xs ↔ z ∈ xs := by
  induction xs with
  | nil => simp [ofList]
  | cons x xs ih => simp only [ofList, List.foldr_cons, mem_insert, List.mem_cons] at ih ⊢; rw [ih]

section Ascending

variable {β : Type} (key : β → α)

omit [LawfulEqOrd α] in
/-- In a list that ascends by some key nothing stands twice. -/
theorem nodup_of_ascending_by {xs : List β}
    (h : xs.Pairwise (fun a b => compare (key a) (key b) = .lt)) : xs.Nodup :=
  h.imp fun hlt heq => ne_of_compare_lt hlt (congrArg key heq)

omit [LawfulEqOrd α] in
/-- Lists that ascend by the same key and have the same elements are equal. -/
theorem eq_of_ascending_by {xs ys : List β}
    (hx : xs.Pairwise (fun a b => compare (key a) (key b) = .lt))
    (hy : ys.Pairwise (fun a b => compare (key a) (key b) = .lt)) (h : ∀ z, z ∈ xs ↔ z ∈ ys) :
    xs = ys := by
  have hperm : xs.Perm ys := (List.perm_ext_iff_of_nodup (nodup_of_ascending_by key hx)
    (nodup_of_ascending_by key hy)).mpr h
  refine hperm.eq_of_pairwise (fun a b _ _ hlt hgt => ?_) hx hy
  rw [OrientedCmp.gt_of_lt hlt] at hgt
  exact absurd hgt (by decide)

end Ascending

omit [LawfulEqOrd α] in
theorem nodup_of_ascending {xs : List α} (h : xs.Pairwise (fun a b => compare a b = .lt)) :
    xs.Nodup :=
  nodup_of_ascending_by id h

omit [LawfulEqOrd α] in
/-- Ascending lists with the same elements are equal. -/
theorem eq_of_mem_iff {xs ys : List α} (hx : xs.Pairwise (fun a b => compare a b = .lt))
    (hy : ys.Pairwise (fun a b => compare a b = .lt)) (h : ∀ z, z ∈ xs ↔ z ∈ ys) : xs = ys :=
  eq_of_ascending_by id hx hy h

omit [LawfulEqOrd α] in
/-- A set is as large as a list of its elements in which none stands twice. -/
theorem size_eq_length {s : OrderedSet α} {xs : List α} (hxs : xs.Nodup)
    (h : ∀ x, x ∈ s ↔ x ∈ xs) : s.size = xs.length :=
  ((List.perm_ext_iff_of_nodup (nodup_of_ascending s.ascending) hxs).mpr h).length_eq

omit [LawfulEqOrd α] in
theorem ext_mem {s t : OrderedSet α} (h : ∀ z, z ∈ s ↔ z ∈ t) : s = t := by
  cases s; cases t
  congr 1
  exact eq_of_mem_iff ‹_› ‹_› h

end OrderedSet

instance {α : Type} [Ord α] [DecidableEq α] : DecidableEq (OrderedSet α) := fun s t =>
  decidable_of_iff (s.toList = t.toList) (by cases s; cases t; simp)

end UnusedAssets
