import Mathlib.Data.List.Induction
import UnusedAssets.FileTree.Basic

/-!
# Entries of a file tree

What stands at a location, in terms of the entries: names along the way are proper, folders lead to
every entry, and what lies below a folder is listed in ascending order, once.
-/

namespace UnusedAssets.FileTree

open Text

/-- Whether some entries make a tree. -/
def MakeTree (es : List (Location × Entry)) : Prop :=
  es.Pairwise (fun a b => compare a.1 b.1 = .lt) ∧
    ∀ e ∈ es, e.1 ≠ [] ∧ (∀ name ∈ e.1, IsName name) ∧
      (e.2.isFile = true ∨ (Location.path e.1).length ≤ pathLimit) ∧
        (e.1.dropLast = [] ∨ (e.1.dropLast, Entry.folder) ∈ es)

instance (es : List (Location × Entry)) : Decidable (MakeTree es) := by
  unfold MakeTree; infer_instance

def ofEntries (es : List (Location × Entry)) (h : MakeTree es) : FileTree where
  entries := ⟨es, h.1⟩
  below_top := fun e he => (h.2 e he).1
  named := fun e he => (h.2 e he).2.1
  reachable := fun e he => (h.2 e he).2.2.1
  closed := fun e he => (h.2 e he).2.2.2

@[simp] theorem toList_ofEntries (es : List (Location × Entry)) (h : MakeTree es) :
    (ofEntries es h).entries.toList = es := rfl

variable {t : FileTree} {l more : Location} {e : Entry}

@[simp] theorem lookup?_nil (t : FileTree) : t.lookup? [] = some .folder := rfl

theorem lookup?_eq_some_iff (hl : l ≠ []) :
    t.lookup? l = some e ↔ (l, e) ∈ t.entries.toList := by
  rw [lookup?, if_neg hl, OrderedMap.get?_eq_some_iff]

/-- What stands anywhere is the top of the tree or one of the entries. -/
theorem top_or_entry_of_lookup? (h : t.lookup? l = some e) :
    (l = [] ∧ e = .folder) ∨ (l, e) ∈ t.entries.toList := by
  by_cases hl : l = []
  · subst hl
    rw [lookup?_nil, Option.some.injEq] at h
    exact .inl ⟨rfl, h.symm⟩
  · exact .inr ((lookup?_eq_some_iff hl).mp h)

theorem lookup?_of_entry (h : (l, e) ∈ t.entries.toList) : t.lookup? l = some e :=
  (lookup?_eq_some_iff (t.below_top _ h)).mpr h

theorem isFolderAt_iff : t.isFolderAt l = true ↔ t.lookup? l = some .folder := by
  simp [isFolderAt]

theorem isName_of_lookup? (h : t.lookup? l = some e) : ∀ name ∈ l, IsName name := by
  by_cases hl : l = []
  · simp [hl]
  · exact t.named _ ((lookup?_eq_some_iff hl).mp h)

theorem lookup?_dropLast (h : t.lookup? l = some e) (hl : l ≠ []) :
    t.lookup? l.dropLast = some .folder :=
  lookup?_eq_folder_iff.mpr (t.closed _ ((lookup?_eq_some_iff hl).mp h))

/-- Whatever stands below a location stands in a folder there. -/
theorem lookup?_of_append (h : t.lookup? (l ++ more) = some e) (hm : more ≠ []) :
    t.lookup? l = some .folder := by
  induction more using List.reverseRecOn generalizing e with
  | nil => exact absurd rfl hm
  | append_singleton more name ih =>
    have hf : t.lookup? (l ++ more) = some .folder := by
      have := lookup?_dropLast h (by simp)
      rwa [← List.append_assoc, List.dropLast_concat] at this
    by_cases hmore : more = []
    · simpa [hmore] using hf
    · exact ih hf hmore

theorem mem_below_iff {names : List Bytes} :
    (names, e) ∈ t.below l ↔ names ≠ [] ∧ t.lookup? (l ++ names) = some e := by
  simp only [below, List.mem_filterMap, Option.ite_none_right_eq_some, Bool.and_eq_true,
    List.isPrefixOf_iff_prefix, bne_iff_ne, ne_eq, Option.some.injEq, Prod.mk.injEq]
  constructor
  · intro hlisted
    obtain ⟨⟨x, e⟩, hx, ⟨⟨more, rfl⟩, hlen⟩, rfl, rfl⟩ := hlisted
    have hm : more ≠ [] := by
      intro hnil
      subst hnil
      simp at hlen
    rw [List.drop_left]
    exact ⟨hm, (lookup?_eq_some_iff (by simp [hm])).mpr hx⟩
  · intro hfound
    obtain ⟨hne, h⟩ := hfound
    refine ⟨(l ++ names, e), (lookup?_eq_some_iff (by simp [hne])).mp h, ⟨⟨names, rfl⟩, ?_⟩,
      List.drop_left, rfl⟩
    simpa using hne

theorem compare_append_left (l a b : List Bytes) : compare (l ++ a) (l ++ b) = compare a b := by
  induction l with
  | nil => rfl
  | cons x l ih =>
    rw [List.cons_append, List.cons_append, List.compare_eq_compareLex,
      List.compareLex_cons_cons, Std.ReflOrd.compare_self, ← List.compare_eq_compareLex, ih]
    rfl

theorem ascending_below (t : FileTree) (l : Location) :
    ((t.below l).map (·.1)).Pairwise (fun a b => compare a b = .lt) := by
  rw [List.pairwise_map, below, List.pairwise_filterMap]
  refine t.entries.ascending.imp ?_
  intro x y hlt a ha b hb
  simp only [Option.ite_none_right_eq_some, Bool.and_eq_true, List.isPrefixOf_iff_prefix,
    Option.some.injEq] at ha hb
  obtain ⟨⟨⟨more, hx⟩, -⟩, rfl⟩ := ha
  obtain ⟨⟨⟨more', hy⟩, -⟩, rfl⟩ := hb
  rw [← hx, ← hy, compare_append_left] at hlt
  rwa [← hx, ← hy, List.drop_left, List.drop_left]

theorem nodup_below (t : FileTree) (l : Location) : ((t.below l).map (·.1)).Nodup :=
  OrderedSet.nodup_of_ascending (ascending_below t l)

end UnusedAssets.FileTree
