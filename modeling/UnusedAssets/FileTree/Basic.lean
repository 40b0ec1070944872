import UnusedAssets.OrderedMap
import UnusedAssets.Path

/-!
# File trees

A file tree says what stands at each location. Every entry has a proper name and stands in a folder,
and folders and links have an absolute path that can be handed over as a whole. All this is part of the
type, so what lies below a folder is what has the folder's location as a leading part, and a path tells
the names of a location apart.

Names and the targets of links are bytes, which need not spell a text. A tree says nothing about who
may read or enter what, and no file stands in it under two names.
-/

namespace UnusedAssets

open Text

/-- The names that lead from the top of the tree to an entry. -/
abbrev Location := List Bytes

inductive Entry where
  | file (content : Bytes) (executable : Bool)
  | link (target : Bytes)
  | folder
  deriving DecidableEq

def Entry.isFile : Entry → Bool
  | .file .. => true
  | .link _ | .folder => false

/-- The longest name, in bytes. -/
def nameLimit : Nat := 255

/-- What an entry can be called: neither nothing nor one of the two names by which every folder knows
itself and the folder around it, without a slash or a zero byte, and not too long. -/
def IsName (name : Bytes) : Prop :=
  name ≠ [] ∧ name ≠ "." ∧ name ≠ ".." ∧ Path.slash ∉ name ∧ 0 ∉ name ∧ name.length ≤ nameLimit

instance (name : Bytes) : Decidable (IsName name) := by
  unfold IsName; infer_instance

/-- How many bytes a path may have that is handed over as a whole. -/
def pathLimit : Nat := 4095

def Location.path (l : Location) : Bytes := Path.slash :: between Path.slash l

structure FileTree where
  entries : OrderedMap Location Entry
  /-- The top of the tree is a folder without an entry. -/
  below_top : ∀ e ∈ entries.toList, e.1 ≠ []
  named : ∀ e ∈ entries.toList, ∀ name ∈ e.1, IsName name
  /-- A file may lie deeper, since it is reached from its folder. -/
  reachable : ∀ e ∈ entries.toList, e.2.isFile = true ∨ (Location.path e.1).length ≤ pathLimit
  /-- Every entry stands in a folder. -/
  closed : ∀ e ∈ entries.toList,
    e.1.dropLast = [] ∨ (e.1.dropLast, Entry.folder) ∈ entries.toList

namespace FileTree

def empty : FileTree where
  entries := ∅
  below_top := fun _ h => absurd h List.not_mem_nil
  named := fun _ h => absurd h List.not_mem_nil
  reachable := fun _ h => absurd h List.not_mem_nil
  closed := fun _ h => absurd h List.not_mem_nil

instance : EmptyCollection FileTree := ⟨empty⟩

instance : Inhabited FileTree := ⟨∅⟩

def lookup? (t : FileTree) (l : Location) : Option Entry :=
  if l = [] then some .folder else t.entries.get? l

def isFolderAt (t : FileTree) (l : Location) : Bool := decide (t.lookup? l = some .folder)

/-- Whether `e` can be put at `l`: the location has proper names and, unless for a file, no longer a
path than any, it stands in a folder, and only a folder has entries below it. -/
def Fits (t : FileTree) (l : Location) (e : Entry) : Prop :=
  l ≠ [] ∧ (∀ name ∈ l, IsName name) ∧
    (e.isFile = true ∨ (Location.path l).length ≤ pathLimit) ∧
    t.lookup? l.dropLast = some .folder ∧
    (e = .folder ∨ ∀ x ∈ t.entries.toList, x.1.dropLast ≠ l)

instance (t : FileTree) (l : Location) (e : Entry) : Decidable (t.Fits l e) := by
  unfold Fits; infer_instance

theorem lookup?_eq_folder_iff {t : FileTree} {l : Location} :
    t.lookup? l = some .folder ↔ l = [] ∨ (l, Entry.folder) ∈ t.entries.toList := by
  unfold lookup?
  split
  · next h => simp [h]
  · next h => simp [h, OrderedMap.get?_eq_some_iff]

theorem dropLast_ne_self {l : Location} (h : l ≠ []) : l.dropLast ≠ l := by
  intro e
  have := congrArg List.length e
  rw [List.length_dropLast] at this
  have : 0 < l.length := List.length_pos_iff.mpr h
  omega

/-- The tree with `e` at `l`, if it fits. -/
def put? (t : FileTree) (l : Location) (e : Entry) : Option FileTree :=
  if h : t.Fits l e then
    some {
      entries := t.entries.put l e
      below_top := by
        intro x hx
        rcases OrderedMap.mem_put.mp hx with rfl | ⟨hx, _⟩
        · exact h.1
        · exact t.below_top x hx
      named := by
        intro x hx
        rcases OrderedMap.mem_put.mp hx with rfl | ⟨hx, _⟩
        · exact h.2.1
        · exact t.named x hx
      reachable := by
        intro x hx
        rcases OrderedMap.mem_put.mp hx with rfl | ⟨hx, _⟩
        · exact h.2.2.1
        · exact t.reachable x hx
      closed := by
        intro x hx
        have kept : ∀ p, p ≠ l → (p, Entry.folder) ∈ t.entries.toList →
            (p, Entry.folder) ∈ (t.entries.put l e).toList := fun p hp hm =>
          OrderedMap.mem_put.mpr (.inr ⟨hm, hp⟩)
        rcases OrderedMap.mem_put.mp hx with rfl | ⟨hx, _⟩
        · rcases lookup?_eq_folder_iff.mp h.2.2.2.1 with hp | hp
          · exact .inl hp
          · exact .inr (kept _ (dropLast_ne_self h.1) hp)
        · rcases t.closed x hx with hp | hp
          · exact .inl hp
          · by_cases hl : x.1.dropLast = l
            · rcases h.2.2.2.2 with rfl | hno
              · exact .inr (OrderedMap.mem_put.mpr (.inl (by rw [hl])))
              · exact absurd hl (hno x hx)
            · exact .inr (kept _ hl hp) }
  else none

def remove (t : FileTree) (l : Location) : FileTree where
  entries := t.entries.filter fun e => !l.isPrefixOf e.1
  below_top := fun e h => t.below_top e (List.mem_filter.mp h).1
  named := fun e h => t.named e (List.mem_filter.mp h).1
  reachable := fun e h => t.reachable e (List.mem_filter.mp h).1
  closed := by
    intro e h
    obtain ⟨hm, hl⟩ := List.mem_filter.mp h
    rcases t.closed e hm with hp | hp
    · exact .inl hp
    · refine .inr (List.mem_filter.mpr ⟨hp, ?_⟩)
      simp only [Bool.not_eq_true', ← Bool.not_eq_true, List.isPrefixOf_iff_prefix] at hl ⊢
      exact fun hpre => hl (hpre.trans (List.dropLast_prefix e.1))

/-- The entries below `l`, each with the names that lead to it from there. They are in the order of
a walk that takes the entries of a folder by name, each folder before what is in it. -/
def below (t : FileTree) (l : Location) : List (Location × Entry) :=
  t.entries.toList.filterMap fun e =>
    if l.isPrefixOf e.1 && e.1.length != l.length then some (e.1.drop l.length, e.2) else none

end FileTree

end UnusedAssets
