import Mathlib.Data.List.Perm.Subperm
import UnusedAssets.Candidate
import UnusedAssets.Proofs.FileTree.Growth

/-!
# Descents

A descent takes the entries of a folder by name and goes into a folder when it comes to it, if a test
lets it. It meets what lies below the folder and behind no folder that the test keeps it out of
(`mem_descend_iff`), in the order of a listing (`ascending_descend`).
-/

namespace UnusedAssets

open Text

open Std Candidate

namespace FileTree

variable {t : FileTree} {l : Location} {enters : List Bytes → Bool} {name : Bytes}
  {names : List Bytes} {e : Entry}

/-- What stands directly in the folder at a location, by name. -/
def children (t : FileTree) (l : Location) : List (Bytes × Entry) :=
  (t.below l).filterMap fun e =>
    match e.1 with
    | [name] => some (name, e.2)
    | _ => none

theorem mem_children_iff : (name, e) ∈ t.children l ↔ t.lookup? (l ++ [name]) = some e := by
  simp only [children, List.mem_filterMap]
  constructor
  · intro hchild
    obtain ⟨⟨names, e'⟩, hmem, he⟩ := hchild
    split at he
    · next only hnames =>
      obtain ⟨rfl, rfl⟩ := Prod.mk.inj (Option.some.inj he)
      subst hnames
      exact (mem_below_iff.mp hmem).2
    · exact absurd he (by simp)
  · intro he
    exact ⟨([name], e), mem_below_iff.mpr ⟨by simp, he⟩, rfl⟩

theorem compare_singleton (a b : Bytes) : compare [a] [b] = compare a b := by
  rw [List.compare_eq_compareLex, List.compareLex_cons_cons]
  cases compare a b <;> rfl

theorem ascending_children (t : FileTree) (l : Location) :
    ((t.children l).map (·.1)).Pairwise (fun a b => compare a b = .lt) := by
  have hbelow := List.pairwise_map.mp (ascending_below t l)
  rw [List.pairwise_map, children, List.pairwise_filterMap]
  refine hbelow.imp fun {x y} hlt a ha b hb => ?_
  split at ha
  · next hx =>
    split at hb
    · next hy =>
      obtain rfl := Option.some.inj ha
      obtain rfl := Option.some.inj hb
      rwa [hx, hy, compare_singleton] at hlt
    · exact absurd hb (by simp)
  · exact absurd ha (by simp)

/-- There is less below an entry of a folder than below the folder. -/
theorem length_below_lt (he : t.lookup? (l ++ [name]) = some e) :
    (t.below (l ++ [name])).length < (t.below l).length := by
  let inner := (t.below (l ++ [name])).map fun m => name :: m.1
  have hnodup : ([name] :: inner).Nodup := by
    have hinj : Function.Injective fun m : List Bytes => name :: m := List.cons_injective
    refine List.nodup_cons.mpr ⟨fun hmem => ?_, ?_⟩
    · obtain ⟨⟨more, e⟩, hm, heq⟩ := List.mem_map.mp hmem
      exact (mem_below_iff.mp hm).1 (List.cons.inj heq).2
    · have := (nodup_below t (l ++ [name])).map hinj
      rwa [List.map_map] at this
  have hsub : [name] :: inner ⊆ (t.below l).map (·.1) := by
    refine List.cons_subset.mpr ⟨?_, ?_⟩
    · exact List.mem_map.mpr ⟨([name], e), mem_below_iff.mpr ⟨by simp, he⟩, rfl⟩
    · intro names hmem
      obtain ⟨⟨more, e⟩, hm, rfl⟩ := List.mem_map.mp hmem
      have hlookup := (mem_below_iff.mp hm).2
      rw [List.append_assoc, List.singleton_append] at hlookup
      exact List.mem_map.mpr ⟨(name :: more, e), mem_below_iff.mpr ⟨by simp, hlookup⟩, rfl⟩
  have hlength := (List.subperm_of_subset hnodup hsub).length_le
  simp only [inner, List.length_cons, List.length_map] at hlength
  omega

theorem all_enclosing_cons {next : Bytes} {more : List Bytes} :
    (enclosing (name :: next :: more)).all enters =
      (enters [name] && (enclosing (next :: more)).all fun more => enters (name :: more)) := by
  simp [enclosing, List.range_succ_eq_map, List.all_map, Function.comp_def]

/-- What is met at an entry of a folder, where `inner` is what is met from there on. -/
def metAt (enters : List Bytes → Bool) (c : Bytes × Entry) (inner : List (List Bytes × Entry)) :
    List (List Bytes × Entry) :=
  ([c.1], c.2) ::
    if c.2 = .folder && enters [c.1] then inner.map fun m => (c.1 :: m.1, m.2) else []

theorem mem_metAt_iff {c : Bytes × Entry} {inner : List (List Bytes × Entry)} :
    (names, e) ∈ metAt enters c inner ↔ names = [c.1] ∧ e = c.2 ∨
      c.2 = .folder ∧ enters [c.1] = true ∧ ∃ more, names = c.1 :: more ∧ (more, e) ∈ inner := by
  have hinner : (names, e) ∈ inner.map (fun m => (c.1 :: m.1, m.2)) ↔
      ∃ more, names = c.1 :: more ∧ (more, e) ∈ inner := by
    simp [eq_comm, and_comm]
  rw [metAt, List.mem_cons, Prod.mk.injEq]
  refine or_congr_right ?_
  split
  · next h =>
    simp only [Bool.and_eq_true, decide_eq_true_eq] at h
    simp only [hinner, h, true_and]
  · next h =>
    simp only [Bool.and_eq_true, decide_eq_true_eq] at h
    simp only [List.not_mem_nil, false_iff]
    exact fun hmet => h ⟨hmet.1, hmet.2.1⟩

theorem exists_cons_of_mem_metAt {c : Bytes × Entry} {inner : List (List Bytes × Entry)}
    {m : List Bytes × Entry} (h : m ∈ metAt enters c inner) : ∃ more, m.1 = c.1 :: more := by
  rcases mem_metAt_iff.mp h with ⟨hnames, -⟩ | ⟨-, -, more, hnames, -⟩
  · exact ⟨[], hnames⟩
  · exact ⟨more, hnames⟩

/-- What is met on a descent from the folder at a location, with the names that lead there. The test
is asked about the names that lead to a folder. -/
def descend (t : FileTree) (enters : List Bytes → Bool) (l : Location) :
    List (List Bytes × Entry) :=
  (t.children l).attach.flatMap fun c =>
    metAt enters c.1 (t.descend (fun more => enters (c.1.1 :: more)) (l ++ [c.1.1]))
termination_by (t.below l).length
decreasing_by exact length_below_lt (mem_children_iff.mp c.2)

theorem mem_descend_cases : (names, e) ∈ t.descend enters l ↔ ∃ name c,
    t.lookup? (l ++ [name]) = some c ∧ (names, e) ∈ metAt enters (name, c)
      (t.descend (fun more => enters (name :: more)) (l ++ [name])) := by
  rw [descend, List.mem_flatMap]
  constructor
  · intro hmet
    obtain ⟨⟨⟨name, c⟩, hchild⟩, -, hmem⟩ := hmet
    exact ⟨name, c, mem_children_iff.mp hchild, hmem⟩
  · intro hmet
    obtain ⟨name, c, hchild, hmem⟩ := hmet
    exact ⟨⟨(name, c), mem_children_iff.mpr hchild⟩, List.mem_attach _ _, hmem⟩

theorem mem_descend_cons {more : List Bytes} : (name :: more, e) ∈ t.descend enters l ↔
    more = [] ∧ t.lookup? (l ++ [name]) = some e ∨
      t.lookup? (l ++ [name]) = some .folder ∧ enters [name] = true ∧
        (more, e) ∈ t.descend (fun more => enters (name :: more)) (l ++ [name]) := by
  rw [mem_descend_cases]
  simp only [mem_metAt_iff, List.cons.injEq]
  constructor
  · rintro ⟨_, c, hchild, ⟨⟨rfl, rfl⟩, rfl⟩ | ⟨rfl, henters, _, ⟨rfl, rfl⟩, hm⟩⟩
    · exact .inl ⟨rfl, hchild⟩
    · exact .inr ⟨hchild, henters, hm⟩
  · rintro (⟨rfl, he⟩ | ⟨hfolder, henters, hm⟩)
    · exact ⟨name, e, he, .inl ⟨⟨rfl, rfl⟩, rfl⟩⟩
    · exact ⟨name, .folder, hfolder, .inr ⟨rfl, henters, more, ⟨rfl, rfl⟩, hm⟩⟩

theorem ne_nil_of_mem_descend (h : (names, e) ∈ t.descend enters l) : names ≠ [] := by
  obtain ⟨name, c, -, hmem⟩ := mem_descend_cases.mp h
  obtain ⟨more, hnames⟩ := exists_cons_of_mem_metAt hmem
  exact fun hnil => List.cons_ne_nil name more (hnames.symm.trans hnil)

/-- A descent meets what is below the folder and can be come to through folders that it enters. -/
theorem mem_descend_iff : (names, e) ∈ t.descend enters l ↔
    (names, e) ∈ t.below l ∧ (enclosing names).all enters = true := by
  induction names generalizing enters l with
  | nil =>
    constructor
    · exact fun h => absurd rfl (ne_nil_of_mem_descend h)
    · exact fun h => absurd rfl (mem_below_iff.mp h.1).1
  | cons name more ih =>
    rw [mem_descend_cons, ih, mem_below_iff, mem_below_iff]
    cases more with
    | nil => simp [enclosing]
    | cons next more =>
      have hsame : l ++ [name] ++ next :: more = l ++ name :: next :: more := by simp
      rw [hsame, all_enclosing_cons]
      constructor
      · intro hmet
        obtain ⟨⟨⟩, -⟩ | ⟨-, henters, ⟨-, he⟩, hall⟩ := hmet
        exact ⟨⟨by simp, he⟩, by simp [henters, hall]⟩
      · intro hbelow
        obtain ⟨⟨-, he⟩, hall⟩ := hbelow
        obtain ⟨henters, hall⟩ := Bool.and_eq_true_iff.mp hall
        rw [← hsame] at he
        exact .inr ⟨lookup?_of_append he (by simp), henters, ⟨by simp, hsame ▸ he⟩, hall⟩

theorem compare_cons_of_lt {a b : Bytes} (h : compare a b = .lt) (more more' : List Bytes) :
    compare (a :: more) (b :: more') = .lt := by
  rw [List.compare_eq_compareLex, List.compareLex_cons_cons, h]
  rfl

theorem compare_singleton_cons (a : Bytes) {more : List Bytes} (h : more ≠ []) :
    compare [a] (a :: more) = .lt := by
  obtain ⟨b, more, rfl⟩ := List.exists_cons_of_ne_nil h
  exact compare_append_left [a] [] (b :: more)

theorem ascending_metAt {c : Bytes × Entry} {inner : List (List Bytes × Entry)}
    (hne : ∀ m ∈ inner, m.1 ≠ [])
    (h : (inner.map (·.1)).Pairwise (fun a b => compare a b = .lt)) :
    ((metAt enters c inner).map (·.1)).Pairwise (fun a b => compare a b = .lt) := by
  rw [List.pairwise_map] at h
  rw [metAt, List.map_cons, List.pairwise_cons]
  split
  · constructor
    · intro names hnames
      simp only [List.map_map, List.mem_map, Function.comp_def] at hnames
      obtain ⟨m, hm, rfl⟩ := hnames
      exact compare_singleton_cons _ (hne m hm)
    · rw [List.map_map, List.pairwise_map]
      exact h.imp fun {x y} hlt => (compare_append_left [c.1] x.1 y.1).trans hlt
  · simp

/-- A descent meets what it meets in ascending order. -/
theorem ascending_descend (t : FileTree) (enters : List Bytes → Bool) (l : Location) :
    ((t.descend enters l).map (·.1)).Pairwise (fun a b => compare a b = .lt) := by
  fun_induction descend t enters l with
  | case1 enters l ih =>
    rw [List.map_flatMap, List.pairwise_flatMap]
    constructor
    · intro c _
      exact ascending_metAt (fun _ hm => ne_nil_of_mem_descend hm) (ih c)
    · -- What is met at an entry begins with its name, and the names ascend.
      have hnames := List.pairwise_map.mp (ascending_children t l)
      rw [← List.attach_map_subtype_val (t.children l), List.pairwise_map] at hnames
      refine hnames.imp fun {c d} hlt names hmem names' hmem' => ?_
      obtain ⟨m, hm, rfl⟩ := List.mem_map.mp hmem
      obtain ⟨m', hm', rfl⟩ := List.mem_map.mp hmem'
      obtain ⟨more, hmore⟩ := exists_cons_of_mem_metAt hm
      obtain ⟨more', hmore'⟩ := exists_cons_of_mem_metAt hm'
      rw [hmore, hmore']
      exact compare_cons_of_lt hlt more more'

end FileTree

end UnusedAssets
