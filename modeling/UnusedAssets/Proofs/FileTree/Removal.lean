import Mathlib.Data.List.Basic
import UnusedAssets.Proofs.FileTree.Walk

/-!
# File trees with something removed

What is left of a tree after several removals, and which walks are left: those that find all links
on the way and the end still there.
-/

namespace UnusedAssets.FileTree

open Text

def removeAll (t : FileTree) (ls : List Location) : FileTree := ls.foldl remove t

variable {t t' : FileTree} {ls links : List Location} {here l x : Location} {todo : List Bytes}
  {e : Entry}

theorem toList_entries_removeAll (t : FileTree) (ls : List Location) :
    (t.removeAll ls).entries.toList =
      t.entries.toList.filter fun e => ls.all fun l => !l.isPrefixOf e.1 := by
  induction ls generalizing t with
  | nil => exact (List.filter_true _).symm
  | cons l ls ih =>
    have hremove : (t.remove l).entries.toList =
        t.entries.toList.filter fun e => !l.isPrefixOf e.1 := rfl
    rw [removeAll, List.foldl_cons, ← removeAll, ih, hremove, List.filter_filter]
    simp only [List.all_cons, Bool.and_comm]

theorem lookup?_removeAll_eq_some_iff (hls : [] ∉ ls) : (t.removeAll ls).lookup? x = some e ↔
    t.lookup? x = some e ∧ ∀ l ∈ ls, ¬ l <+: x := by
  by_cases hx : x = []
  · subst hx
    have hroot : ∀ l ∈ ls, ¬ l <+: [] := by
      intro l hl hpre
      rw [List.prefix_nil.mp hpre] at hl
      exact hls hl
    simp only [lookup?_nil]
    exact (and_iff_left hroot).symm
  · rw [lookup?_eq_some_iff hx, lookup?_eq_some_iff hx, toList_entries_removeAll, List.mem_filter]
    simp only [List.all_eq_true, Bool.not_eq_true', ← Bool.not_eq_true,
      List.isPrefixOf_iff_prefix]

theorem below_removeAll (t : FileTree) (ls : List Location) (l : Location) :
    (t.removeAll ls).below l =
      (t.below l).filter fun e => ls.all fun r => !r.isPrefixOf (l ++ e.1) := by
  rw [below, below, toList_entries_removeAll, List.filterMap_filter, List.filter_filterMap]
  refine List.filterMap_congr fun x _ => ?_
  by_cases hx : (l.isPrefixOf x.1 && x.1.length != l.length) = true
  · obtain ⟨more, hmore⟩ : l <+: x.1 := by
      rw [Bool.and_eq_true, List.isPrefixOf_iff_prefix] at hx
      exact hx.1
    have hback : l ++ x.1.drop l.length = x.1 := by rw [← hmore, List.drop_left]
    simp only [hx, ↓reduceIte, Option.filter_some, hback]
  · simp only [hx, Bool.false_eq_true, ↓reduceIte, ite_self, Option.filter_none]

theorem not_mem_nil_of_leaves (hls : ∀ l ∈ ls, ∃ e, t.lookup? l = some e ∧ e ≠ .folder) :
    [] ∉ ls := by
  intro h
  obtain ⟨e, he, hne⟩ := hls [] h
  rw [lookup?_nil, Option.some.injEq] at he
  exact hne he.symm

theorem not_prefix_iff_of_leaves (hls : ∀ l ∈ ls, ∃ e, t.lookup? l = some e ∧ e ≠ .folder)
    (hx : t.lookup? x = some e) : (∀ l ∈ ls, ¬ l <+: x) ↔ x ∉ ls := by
  constructor
  · intro h hmem
    exact h x hmem List.prefix_rfl
  · intro h l hl hpre
    obtain ⟨more, rfl⟩ := hpre
    obtain ⟨f, hf, hne⟩ := hls l hl
    by_cases hmore : more = []
    · subst hmore
      rw [List.append_nil] at h
      exact h hl
    · rw [lookup?_of_append hx hmore, Option.some.injEq] at hf
      exact hne hf.symm

/-- If nothing is removed but files and links, only what stands at the locations is gone. -/
theorem lookup?_removeAll_of_leaves (hls : ∀ l ∈ ls, ∃ e, t.lookup? l = some e ∧ e ≠ .folder) :
    (t.removeAll ls).lookup? x = some e ↔ t.lookup? x = some e ∧ x ∉ ls := by
  rw [lookup?_removeAll_eq_some_iff (not_mem_nil_of_leaves hls)]
  exact and_congr_right (not_prefix_iff_of_leaves hls)

theorem below_removeAll_of_leaves (hls : ∀ l ∈ ls, ∃ e, t.lookup? l = some e ∧ e ≠ .folder) :
    (t.removeAll ls).below l = (t.below l).filter fun e => decide (l ++ e.1 ∉ ls) := by
  rw [below_removeAll]
  refine List.filter_congr fun e he => ?_
  have hx := (mem_below_iff.mp he).2
  rw [Bool.eq_iff_iff, decide_eq_true_eq, ← not_prefix_iff_of_leaves hls hx]
  simp only [List.all_eq_true, Bool.not_eq_true', ← Bool.not_eq_true, List.isPrefixOf_iff_prefix]

theorem lookup?_removeAll_folder_iff
    (hls : ∀ l ∈ ls, ∃ e, t.lookup? l = some e ∧ e ≠ .folder) :
    (t.removeAll ls).lookup? x = some .folder ↔ t.lookup? x = some .folder := by
  rw [lookup?_removeAll_of_leaves hls]
  refine and_iff_left_of_imp fun hx hmem => ?_
  obtain ⟨f, hf, hne⟩ := hls x hmem
  rw [hx, Option.some.injEq] at hf
  exact hne hf.symm

theorem Leads.mono (h : t'.Leads here todo links l)
    (hle : ∀ x e, t'.lookup? x = some e → t.lookup? x = some e) : t.Leads here todo links l := by
  have folderAt : ∀ x, t'.isFolderAt x = true → t.isFolderAt x = true := fun x hx =>
    isFolderAt_iff.mpr (hle x _ (isFolderAt_iff.mp hx))
  induction h with
  | done here => exact .done here
  | stay dot folder _ ih => exact .stay dot (folderAt _ folder) ih
  | up dots folder _ ih => exact .up dots (folderAt _ folder) ih
  | enter entry plain _ ih => exact .enter (hle _ _ entry) plain ih
  | jump entry _ ih => exact .jump (hle _ _ entry) ih

theorem leads_removeAll_iff (hls : ∀ l ∈ ls, ∃ e, t.lookup? l = some e ∧ e ≠ .folder) :
    (t.removeAll ls).Leads here todo links l ∧ (t.removeAll ls).lookup? l = some e ↔
      t.Leads here todo links l ∧ t.lookup? l = some e ∧ ∀ x ∈ l :: links, x ∉ ls := by
  have hle (x : Location) (e : Entry) (h : (t.removeAll ls).lookup? x = some e) :
      t.lookup? x = some e := ((lookup?_removeAll_of_leaves hls).mp h).1
  constructor
  · intro ⟨hwalk, hl⟩
    refine ⟨hwalk.mono hle, hle _ _ hl, ?_⟩
    intro x hx
    rcases List.mem_cons.mp hx with rfl | hx
    · exact ((lookup?_removeAll_of_leaves hls).mp hl).2
    · obtain ⟨target, htarget⟩ := hwalk.exists_link hx
      exact ((lookup?_removeAll_of_leaves hls).mp htarget).2
  · intro ⟨hwalk, hl, hkept⟩
    have hsame (x : Location) (hx : x ∉ ls) : (t.removeAll ls).lookup? x = t.lookup? x := by
      refine Option.ext fun f => ?_
      rw [lookup?_removeAll_of_leaves hls, and_iff_left hx]
    refine ⟨hwalk.of_kept ?_ ?_, ?_⟩
    · exact fun x hx => (lookup?_removeAll_folder_iff hls).mpr hx
    · intro x hx
      exact hsame x (hkept x (List.mem_cons.mpr hx))
    · rw [hsame l (hkept l List.mem_cons_self), hl]

end UnusedAssets.FileTree
