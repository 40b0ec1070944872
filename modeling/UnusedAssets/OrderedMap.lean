import UnusedAssets.OrderedSet

/-!
# Finite maps as ascending lists

A map is kept as the list of its entries, keys strictly ascending. `mem_put` says what writing an
entry does to the entries, and `get?_eq_some_iff` that looking a key up reads them.
-/

namespace UnusedAssets

open Std

/-- A finite map, its entries listed with strictly ascending keys. -/
structure OrderedMap (κ α : Type) [Ord κ] where
  toList : List (κ × α)
  ascending : toList.Pairwise (fun a b => compare a.1 b.1 = .lt) := by exact .nil

namespace OrderedMap

variable {κ α : Type} [Ord κ]

def putInto (k : κ) (v : α) : List (κ × α) → List (κ × α)
  | [] => [(k, v)]
  | e :: es =>
    match compare k e.1 with
    | .lt => (k, v) :: e :: es
    | .eq => (k, v) :: es
    | .gt => e :: putInto k v es

def empty : OrderedMap κ α := ⟨[], .nil⟩

instance : EmptyCollection (OrderedMap κ α) := ⟨empty⟩

instance : Inhabited (OrderedMap κ α) := ⟨∅⟩

def get? [DecidableEq κ] (m : OrderedMap κ α) (k : κ) : Option α :=
  (m.toList.find? (fun e => decide (e.1 = k))).map (·.2)

def filter (p : κ × α → Bool) (m : OrderedMap κ α) : OrderedMap κ α :=
  ⟨m.toList.filter p, m.ascending.filter p⟩

/-- The keys, ascending. -/
def keys (m : OrderedMap κ α) : List κ := m.toList.map (·.1)

variable [TransOrd κ] [LawfulEqOrd κ]

omit [TransOrd κ] [LawfulEqOrd κ] in
theorem key_of_mem_putInto {k : κ} {v : α} {es : List (κ × α)} {e : κ × α}
    (h : e ∈ putInto k v es) : e = (k, v) ∨ e ∈ es := by
  induction es with
  | nil => simpa [putInto] using h
  | cons f es ih =>
    unfold putInto at h
    split at h
    · simpa using h
    · rcases List.mem_cons.mp h with h | h
      · exact .inl h
      · exact .inr (List.mem_cons_of_mem _ h)
    · rcases List.mem_cons.mp h with h | h
      · exact .inr (by simp [h])
      · rcases ih h with h | h
        · exact .inl h
        · exact .inr (List.mem_cons_of_mem _ h)

theorem ascending_putInto {k : κ} {v : α} {es : List (κ × α)}
    (h : es.Pairwise (fun a b => compare a.1 b.1 = .lt)) :
    (putInto k v es).Pairwise (fun a b => compare a.1 b.1 = .lt) := by
  induction es with
  | nil => simp [putInto]
  | cons f es ih =>
    have hf := List.pairwise_cons.mp h
    unfold putInto
    split
    · next hk =>
      refine List.pairwise_cons.mpr ⟨?_, h⟩
      intro z hz
      rcases List.mem_cons.mp hz with rfl | hz
      · exact hk
      · exact TransCmp.lt_trans hk (hf.1 z hz)
    · next hk =>
      refine List.pairwise_cons.mpr ⟨?_, hf.2⟩
      intro z hz
      have : k = f.1 := LawfulEqOrd.eq_of_compare hk
      rw [this]
      exact hf.1 z hz
    · next hk =>
      refine List.pairwise_cons.mpr ⟨?_, ih hf.2⟩
      intro z hz
      rcases key_of_mem_putInto hz with rfl | hz
      · exact OrientedCmp.lt_of_gt hk
      · exact hf.1 z hz

omit [LawfulEqOrd κ] in
/-- In an ascending list no two entries share a key. -/
theorem eq_of_mem_of_key {es : List (κ × α)} {e f : κ × α}
    (h : es.Pairwise (fun a b => compare a.1 b.1 = .lt)) (he : e ∈ es) (hf : f ∈ es)
    (hk : e.1 = f.1) : e = f := by
  induction es with
  | nil => simp at he
  | cons g es ih =>
    obtain ⟨hg, hes⟩ := List.pairwise_cons.mp h
    rcases List.mem_cons.mp he with rfl | he'
    · rcases List.mem_cons.mp hf with rfl | hf'
      · rfl
      · exact absurd hk (OrderedSet.ne_of_compare_lt (hg f hf'))
    · rcases List.mem_cons.mp hf with rfl | hf'
      · exact absurd hk.symm (OrderedSet.ne_of_compare_lt (hg e he'))
      · exact ih hes he' hf'

theorem mem_putInto {k : κ} {v : α} {es : List (κ × α)} {e : κ × α}
    (h : es.Pairwise (fun a b => compare a.1 b.1 = .lt)) :
    e ∈ putInto k v es ↔ e = (k, v) ∨ (e ∈ es ∧ e.1 ≠ k) := by
  induction es with
  | nil => simp [putInto]
  | cons f es ih =>
    obtain ⟨hf, hes⟩ := List.pairwise_cons.mp h
    unfold putInto
    split
    · next hk =>
      -- All keys come behind `k`.
      have hne : ∀ z ∈ f :: es, z.1 ≠ k := by
        refine List.forall_mem_cons.mpr ⟨(OrderedSet.ne_of_compare_lt hk).symm, fun z hz => ?_⟩
        exact (OrderedSet.ne_of_compare_lt (TransCmp.lt_trans hk (hf z hz))).symm
      rw [List.mem_cons]
      exact or_congr_right (and_iff_left_of_imp (hne e)).symm
    · next hk =>
      obtain rfl : k = f.1 := LawfulEqOrd.eq_of_compare hk
      have hne : ∀ z ∈ es, z.1 ≠ f.1 := fun z hz => (OrderedSet.ne_of_compare_lt (hf z hz)).symm
      rw [List.mem_cons, List.mem_cons]
      refine or_congr_right ⟨fun he => ⟨.inr he, hne e he⟩, fun ⟨he, hkey⟩ => ?_⟩
      exact he.resolve_left fun heq => hkey (congrArg Prod.fst heq)
    · next hk =>
      have hne : f.1 ≠ k := OrderedSet.ne_of_compare_lt (OrientedCmp.lt_of_gt hk)
      have hown : e = f → e.1 ≠ k := fun heq => heq ▸ hne
      rw [List.mem_cons, ih hes, List.mem_cons, or_left_comm, or_and_right,
        and_iff_left_of_imp hown]

def put (k : κ) (v : α) (m : OrderedMap κ α) : OrderedMap κ α :=
  ⟨putInto k v m.toList, ascending_putInto m.ascending⟩

theorem mem_put {m : OrderedMap κ α} {k : κ} {v : α} {e : κ × α} :
    e ∈ (m.put k v).toList ↔ e = (k, v) ∨ (e ∈ m.toList ∧ e.1 ≠ k) :=
  mem_putInto m.ascending

omit [LawfulEqOrd κ] in
theorem get?_eq_some_iff [DecidableEq κ] {m : OrderedMap κ α} {k : κ} {v : α} :
    m.get? k = some v ↔ (k, v) ∈ m.toList := by
  unfold get?
  constructor
  · intro h
    obtain ⟨e, he, hv⟩ := Option.map_eq_some_iff.mp h
    have hk := List.find?_some he
    have hm := List.mem_of_find?_eq_some he
    simp only [decide_eq_true_eq] at hk
    subst hk; subst hv
    exact hm
  · intro h
    cases hf : m.toList.find? (fun e => decide (e.1 = k)) with
    | none =>
      have := List.find?_eq_none.mp hf (k, v) h
      simp at this
    | some e =>
      have hk := List.find?_some hf
      have hm := List.mem_of_find?_eq_some hf
      simp only [decide_eq_true_eq] at hk
      have := eq_of_mem_of_key m.ascending hm h hk
      simp [this]

omit [LawfulEqOrd κ] in
/-- Maps with the same entries are equal. -/
theorem ext_mem {m m' : OrderedMap κ α} (h : ∀ e, e ∈ m.toList ↔ e ∈ m'.toList) : m = m' := by
  cases m
  cases m'
  congr 1
  exact OrderedSet.eq_of_ascending_by Prod.fst ‹_› ‹_› h

theorem get?_put [DecidableEq κ] (m : OrderedMap κ α) (k l : κ) (v : α) :
    (m.put k v).get? l = if l = k then some v else m.get? l := by
  refine Option.ext fun u => ?_
  rw [get?_eq_some_iff, mem_put, Prod.mk.injEq]
  split
  · next h => simp [h, eq_comm]
  · next h => simp [h, get?_eq_some_iff]

end OrderedMap

end UnusedAssets
