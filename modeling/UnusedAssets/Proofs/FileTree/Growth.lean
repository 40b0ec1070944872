import Mathlib.Data.List.Sort
import UnusedAssets.Proofs.Listing

/-!
# File trees that have grown

One tree has grown to another if all that stands in it stands in the other too, files perhaps with
other contents. Whatever else is there, a path leads where it led (`Leads.of_grown`), and a listing
shows what it showed in the same order, other files in between (`GrowsTo.filesBelow_sublist`). Two
trees that have grown to each other show the same.
-/

namespace UnusedAssets

open Text

open Std Text

/-- Whether one entry may stand for another, with another content if `R` allows it. -/
def Entry.StandsFor (R : Bytes → Bytes → Prop) : Entry → Entry → Prop
  | .folder, .folder => True
  | .link target, .link target' => target = target'
  | .file content _, .file content' _ => R content content'
  | _, _ => False

theorem Entry.StandsFor.imp {R R' : Bytes → Bytes → Prop} {e e' : Entry} (h : e.StandsFor R e')
    (hR : ∀ content content', R content content' → R' content content') : e.StandsFor R' e' := by
  cases e with
  | file content executable =>
    cases e' with
    | file content' executable' => exact hR content content' h
    | _ => exact h
  | _ => cases e' <;> exact h

namespace FileTree

/-- Whether all that stands in one tree stands in another, where the file at a location may have
another content if `R` allows it there. -/
def GrowsTo (t t' : FileTree) (R : Location → Bytes → Bytes → Prop) : Prop :=
  ∀ l e, t.lookup? l = some e → ∃ e', t'.lookup? l = some e' ∧ e.StandsFor (R l) e'

/-- Whether two trees differ in nothing but the contents of files. -/
def SamePaths (t t' : FileTree) : Prop :=
  t.GrowsTo t' (fun _ _ _ => True) ∧ t'.GrowsTo t fun _ _ _ => True

variable {t t' : FileTree} {R R' : Location → Bytes → Bytes → Prop} {cwd here l : Location}
  {todo names : List Bytes} {links : List Location} {path dir target : Bytes}
  {content : Bytes} {executable : Bool}

namespace GrowsTo

theorem of_entries (h : ∀ x ∈ t.entries.toList, ∃ e', (x.1, e') ∈ t'.entries.toList ∧
    x.2.StandsFor (R x.1) e') : t.GrowsTo t' R := by
  intro l e hl
  rcases top_or_entry_of_lookup? hl with ⟨rfl, rfl⟩ | hentry
  · exact ⟨.folder, rfl, trivial⟩
  · obtain ⟨e', he', hstands⟩ := h _ hentry
    exact ⟨e', lookup?_of_entry he', hstands⟩

theorem folder (h : t.GrowsTo t' R) (hl : t.lookup? l = some .folder) :
    t'.lookup? l = some .folder := by
  obtain ⟨e', he', hstands⟩ := h l _ hl
  cases e' with
  | folder => exact he'
  | file content executable => exact hstands.elim
  | link target => exact hstands.elim

theorem link (h : t.GrowsTo t' R) (hl : t.lookup? l = some (.link target)) :
    t'.lookup? l = some (.link target) := by
  obtain ⟨e', he', hstands⟩ := h l _ hl
  cases e' with
  | folder => exact hstands.elim
  | file content executable => exact hstands.elim
  | link target' =>
    obtain rfl : target = target' := hstands
    exact he'

theorem file (h : t.GrowsTo t' R) (hl : t.lookup? l = some (.file content executable)) :
    ∃ content' executable', t'.lookup? l = some (.file content' executable') ∧
      R l content content' := by
  obtain ⟨e', he', hstands⟩ := h l _ hl
  cases e' with
  | folder => exact hstands.elim
  | file content' executable' => exact ⟨content', executable', he', hstands⟩
  | link target => exact hstands.elim

theorem mono (h : t.GrowsTo t' R) (hR : ∀ l content content', R l content content' →
    R' l content content') : t.GrowsTo t' R' := by
  intro l e hl
  obtain ⟨e', he', hstands⟩ := h l e hl
  exact ⟨e', he', hstands.imp (hR l)⟩

theorem isFolderAt (h : t.GrowsTo t' R) (hl : t.isFolderAt l = true) : t'.isFolderAt l = true :=
  isFolderAt_iff.mpr (h.folder (isFolderAt_iff.mp hl))

end GrowsTo

theorem Leads.of_grown (h : t.GrowsTo t' R) (hw : t.Leads here todo links l) :
    t'.Leads here todo links l := by
  induction hw with
  | done here => exact .done here
  | stay dot folder _ ih => exact .stay dot (h.isFolderAt folder) ih
  | up dots folder _ ih => exact .up dots (h.isFolderAt folder) ih
  | jump entry _ ih => exact .jump (h.link entry) ih
  | @enter here step rest links l e entry plain _ ih =>
    cases e with
    | folder => exact .enter (h.folder entry) plain ih
    | link target => exact absurd rfl (plain target)
    | file content executable =>
      obtain ⟨content', executable', entry', -⟩ := h.file entry
      exact .enter entry' (by simp) ih

namespace GrowsTo

theorem resolve (h : t.GrowsTo t' R) (hl : t.resolve cwd path = .ok l) :
    t'.resolve cwd path = .ok l := by
  obtain ⟨hfault, links, hlimit, hwalk⟩ := resolve_eq_ok_iff.mp hl
  exact resolve_eq_ok_iff.mpr ⟨hfault, links, hlimit, hwalk.of_grown h⟩

theorem entryAt_file (h : t.GrowsTo t' R)
    (hentry : t.entryAt cwd path = .ok (.file content executable)) :
    ∃ l content' executable', t.resolve cwd path = .ok l ∧
      t'.entryAt cwd path = .ok (.file content' executable') ∧ R l content content' := by
  obtain ⟨l, hresolve, hl⟩ := entryAt_eq_ok_iff.mp hentry
  obtain ⟨content', executable', hl', hcontent⟩ := h.file hl
  exact ⟨l, content', executable', hresolve,
    entryAt_eq_ok_iff.mpr ⟨l, h.resolve hresolve, hl'⟩, hcontent⟩

/-- In two trees that have grown to each other a path leads to a file in both or in neither. -/
theorem files_or_none {R' : Location → Bytes → Bytes → Prop} (h : t.GrowsTo t' R)
    (h' : t'.GrowsTo t R') (cwd : Location) (path : Bytes) :
    (∃ l content executable content' executable', t.resolve cwd path = .ok l ∧
      t.entryAt cwd path = .ok (.file content executable) ∧
      t'.entryAt cwd path = .ok (.file content' executable') ∧ R l content content') ∨
    (∀ content executable, t.entryAt cwd path ≠ .ok (.file content executable)) ∧
      ∀ content executable, t'.entryAt cwd path ≠ .ok (.file content executable) := by
  by_cases hfile : ∃ content executable, t.entryAt cwd path = .ok (.file content executable)
  · obtain ⟨content, executable, hentry⟩ := hfile
    obtain ⟨l, content', executable', hl, hentry', hcontent⟩ := h.entryAt_file hentry
    exact .inl ⟨l, content, executable, content', executable', hl, hentry, hentry', hcontent⟩
  · simp only [not_exists] at hfile
    refine .inr ⟨hfile, fun content' executable' hentry' => ?_⟩
    obtain ⟨-, content, executable, -, hentry, -⟩ := h'.entryAt_file hentry'
    exact hfile content executable hentry

theorem isFile (h : t.GrowsTo t' R) (hf : t.isFile cwd path = true) :
    t'.isFile cwd path = true := by
  obtain ⟨content, executable, hentry⟩ := isFile_iff.mp hf
  obtain ⟨-, content', executable', -, hentry', -⟩ := h.entryAt_file hentry
  exact isFile_iff.mpr ⟨content', executable', hentry'⟩

theorem pathExists (h : t.GrowsTo t' R) (hp : t.pathExists cwd path = true) :
    t'.pathExists cwd path = true := by
  obtain ⟨e, hentry⟩ := pathExists_iff.mp hp
  obtain ⟨l, hresolve, hl⟩ := entryAt_eq_ok_iff.mp hentry
  obtain ⟨e', hl', -⟩ := h l e hl
  exact pathExists_iff.mpr ⟨e', entryAt_eq_ok_iff.mpr ⟨l, h.resolve hresolve, hl'⟩⟩

theorem mem_filesBelow (h : t.GrowsTo t' R) (hn : names ∈ t.filesBelow cwd dir) :
    names ∈ t'.filesBelow cwd dir := by
  obtain ⟨hne, hlisted, top, e, htop, he, hcounts⟩ := mem_filesBelow_iff.mp hn
  refine mem_filesBelow_iff.mpr ⟨hne, hlisted, top, ?_⟩
  cases e with
  | folder => exact absurd hcounts (by simp [countsAsFile])
  | file content executable =>
    obtain ⟨content', executable', he', -⟩ := h.file he
    exact ⟨_, h.resolve htop, he', rfl⟩
  | link target => exact ⟨_, h.resolve htop, h.link he, h.isFile hcounts⟩

end GrowsTo

/-- Of two ascending lists, one with all elements of the other has them in the same order. -/
theorem sublist_of_ascending {α : Type} [Ord α] [TransOrd α] {xs ys : List α}
    (hx : xs.Pairwise (fun a b => compare a b = .lt))
    (hy : ys.Pairwise (fun a b => compare a b = .lt)) (h : ∀ z ∈ xs, z ∈ ys) : xs.Sublist ys := by
  have : Std.Antisymm (fun a b : α => compare a b = .lt) := by
    refine ⟨fun a b hab hba => ?_⟩
    rw [OrientedCmp.gt_of_lt hab] at hba
    exact absurd hba (by decide)
  have hsub : xs.Subperm ys := List.subperm_of_subset (OrderedSet.nodup_of_ascending hx) h
  exact List.sublist_of_subperm_of_pairwise hsub hx hy

theorem GrowsTo.filesBelow_sublist (h : t.GrowsTo t' R) (cwd : Location) (dir : Bytes) :
    (t.filesBelow cwd dir).Sublist (t'.filesBelow cwd dir) :=
  sublist_of_ascending (ascending_filesBelow t cwd dir) (ascending_filesBelow t' cwd dir)
    fun _ hn => h.mem_filesBelow hn

theorem SamePaths.pathExists_eq (h : t.SamePaths t') :
    t'.pathExists cwd path = t.pathExists cwd path :=
  Bool.eq_iff_iff.mpr ⟨h.2.pathExists, h.1.pathExists⟩

end FileTree

end UnusedAssets
