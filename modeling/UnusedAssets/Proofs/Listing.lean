import UnusedAssets.Listing
import UnusedAssets.Proofs.FileTree.Access

/-!
# What listings hold

The files below a folder are the entries there that count as files and stand in folders that can be
opened (`mem_filesBelow_iff`), listed in ascending order and each once (`nodup_filesBelow`).
-/

namespace UnusedAssets.FileTree

open Text

variable {t : FileTree} {cwd top : Location} {dir : Bytes} {names : List Bytes} {e : Entry}

theorem mem_entriesBelow_iff :
    (names, e) ∈ t.entriesBelow cwd dir ↔ names ≠ [] ∧
      ∃ top, t.resolve cwd dir = .ok top ∧ t.lookup? (top ++ names) = some e := by
  rw [entriesBelow]
  cases t.resolve cwd dir with
  | error fault => simp
  | ok top =>
    simp only [Except.ok.injEq, exists_eq_left']
    split
    · exact mem_below_iff
    · next hf =>
      simp only [List.not_mem_nil, false_iff, not_and]
      exact fun hne h => hf (isFolderAt_iff.mpr (lookup?_of_append h hne))

theorem mem_filesBelow_iff :
    names ∈ t.filesBelow cwd dir ↔ names ≠ [] ∧ isListed dir names = true ∧
      ∃ top e, t.resolve cwd dir = .ok top ∧ t.lookup? (top ++ names) = some e ∧
        t.countsAsFile cwd (pathBelow dir names) e = true := by
  simp only [filesBelow, List.mem_map, List.mem_filter, Bool.and_eq_true]
  constructor
  · intro hlisted
    obtain ⟨⟨names, e⟩, ⟨hm, hl, hc⟩, rfl⟩ := hlisted
    obtain ⟨hne, top, htop, he⟩ := mem_entriesBelow_iff.mp hm
    exact ⟨hne, hl, top, e, htop, he, hc⟩
  · intro hentry
    obtain ⟨hne, hl, top, e, htop, he, hc⟩ := hentry
    exact ⟨(names, e), ⟨mem_entriesBelow_iff.mpr ⟨hne, top, htop, he⟩, hl, hc⟩, rfl⟩

theorem isName_of_mem_filesBelow (h : names ∈ t.filesBelow cwd dir) :
    ∀ n ∈ names, IsName n := by
  obtain ⟨-, -, top, e, -, he, -⟩ := mem_filesBelow_iff.mp h
  exact fun n hn => isName_of_lookup? he n (List.mem_append_right _ hn)

/-- A listing is in ascending order. -/
theorem ascending_filesBelow (t : FileTree) (cwd : Location) (dir : Bytes) :
    (t.filesBelow cwd dir).Pairwise (fun a b => compare a b = .lt) := by
  have hbelow : ((t.entriesBelow cwd dir).map (·.1)).Pairwise (fun a b => compare a b = .lt) := by
    rw [entriesBelow]
    split
    · exact .nil
    · split
      · exact ascending_below t _
      · exact .nil
  exact hbelow.sublist (List.filter_sublist.map _)

theorem nodup_filesBelow (t : FileTree) (cwd : Location) (dir : Bytes) :
    (t.filesBelow cwd dir).Nodup :=
  OrderedSet.nodup_of_ascending (ascending_filesBelow t cwd dir)

theorem length_lt_join (path : Bytes) {name : Bytes} (h : IsName name) :
    path.length < (Path.join path name).length := by
  have hpos : 0 < name.length := List.length_pos_iff.mpr h.1
  unfold Path.join
  rw [h.isAbsolute, if_neg (by decide)]
  split <;> simp only [List.length_append, List.length_cons] <;> omega

theorem length_lt_pathBelow (dir : Bytes) (hne : names ≠ []) (h : ∀ n ∈ names, IsName n) :
    dir.length < (pathBelow dir names).length := by
  induction names generalizing dir with
  | nil => exact absurd rfl hne
  | cons name names ih =>
    have hjoin := length_lt_join dir (h name (by simp))
    rw [pathBelow_cons]
    by_cases hnames : names = []
    · rw [hnames]
      exact hjoin
    · exact Nat.lt_trans hjoin (ih _ hnames fun n hn => h n (List.mem_cons_of_mem _ hn))

end UnusedAssets.FileTree
