import UnusedAssets.Proofs.Listing

/-!
# File trees without links

In a tree without links a path with names behind it leads to what these names say, and a listing
shows all that stands below.
-/

namespace UnusedAssets.FileTree

open Text

def LinkFree (t : FileTree) : Prop := ∀ l target, t.lookup? l ≠ some (.link target)

variable {t : FileTree} {cwd here top l : Location} {dir : Bytes} {names : List Bytes}
  {links : List Location} {e : Entry}

theorem LinkFree.of_entries (h : ∀ x ∈ t.entries.toList, ∀ target, x.2 ≠ .link target) :
    t.LinkFree := by
  intro l target hl
  rcases top_or_entry_of_lookup? hl with ⟨-, he⟩ | hentry
  · exact absurd he (by simp)
  · exact h _ hentry target rfl

theorem LinkFree.leads_eq (ht : t.LinkFree) (h : t.Leads here names links l)
    (hnames : ∀ n ∈ names, IsName n) : l = here ++ names := by
  induction h with
  | done here => exact (List.append_nil here).symm
  | stay dot _ _ _ => exact absurd dot (hnames _ List.mem_cons_self).2.1
  | up dots _ _ _ => exact absurd dots (hnames _ List.mem_cons_self).2.2.1
  | enter _ _ _ ih =>
    have hl := ih fun n hn => hnames n (List.mem_cons_of_mem _ hn)
    rw [hl, List.append_assoc, List.singleton_append]
  | jump entry _ _ => exact absurd entry (ht _ _)

theorem LinkFree.resolve_pathBelow_iff (ht : t.LinkFree) (htop : t.resolve cwd dir = .ok top)
    (hnames : ∀ n ∈ names, IsName n) (hl : t.lookup? l = some e) :
    t.resolve cwd (pathBelow dir names) = .ok l ↔
      pathFault? (pathBelow dir names) = none ∧ l = top ++ names := by
  obtain ⟨hfault, links, hlimit, hwalk⟩ := resolve_eq_ok_iff.mp htop
  by_cases hne : names = []
  · subst hne
    rw [pathBelow, List.foldl_nil, htop, Except.ok.injEq, List.append_nil, eq_comm]
    exact (and_iff_right hfault).symm
  · rw [resolve_eq_ok_iff]
    refine and_congr_right fun _ => ⟨?_, ?_⟩
    · intro h
      obtain ⟨all, -, hall⟩ := h
      obtain ⟨m, first, last, -, hfirst, hlast⟩ := hall.of_append_names hne hnames
      obtain ⟨-, rfl⟩ := hfirst.unique hwalk
      exact ht.leads_eq hlast hnames
    · intro h
      subst h
      exact ⟨links, hlimit, hwalk.append_names hne hl fun target he => ht _ target (he ▸ hl)⟩

theorem LinkFree.entryAt_pathBelow_iff (ht : t.LinkFree) (htop : t.resolve cwd dir = .ok top)
    (hnames : ∀ n ∈ names, IsName n) : t.entryAt cwd (pathBelow dir names) = .ok e ↔
      pathFault? (pathBelow dir names) = none ∧ t.lookup? (top ++ names) = some e := by
  rw [entryAt_eq_ok_iff]
  constructor
  · intro h
    obtain ⟨l, hresolve, hl⟩ := h
    obtain ⟨hfault, rfl⟩ := (ht.resolve_pathBelow_iff htop hnames hl).mp hresolve
    exact ⟨hfault, hl⟩
  · intro h
    exact ⟨_, (ht.resolve_pathBelow_iff htop hnames h.2).mpr ⟨h.1, rfl⟩, h.2⟩

theorem LinkFree.entriesBelow_eq (ht : t.LinkFree) (htop : t.resolve cwd dir = .ok top)
    (hnames : ∀ n ∈ names, IsName n) : t.entriesBelow cwd (pathBelow dir names) =
      if pathFault? (pathBelow dir names) = none ∧ t.lookup? (top ++ names) = some .folder then
        t.below (top ++ names) else [] := by
  rw [entriesBelow]
  split
  · next fault hresolve =>
    rw [if_neg]
    intro h
    rw [(ht.resolve_pathBelow_iff htop hnames h.2).mpr ⟨h.1, rfl⟩] at hresolve
    exact absurd hresolve (by simp)
  · next l hresolve =>
    by_cases hl : t.isFolderAt l = true
    · have hfolder := isFolderAt_iff.mp hl
      obtain ⟨hfault, rfl⟩ := (ht.resolve_pathBelow_iff htop hnames hfolder).mp hresolve
      rw [if_pos hl, if_pos ⟨hfault, hfolder⟩]
    · rw [if_neg hl, if_neg]
      intro h
      rw [(ht.resolve_pathBelow_iff htop hnames h.2).mpr ⟨h.1, rfl⟩, Except.ok.injEq] at hresolve
      rw [← hresolve] at hl
      exact hl (isFolderAt_iff.mpr h.2)

theorem LinkFree.filesBelow_eq (ht : t.LinkFree) : t.filesBelow cwd dir =
    ((t.entriesBelow cwd dir).filter fun e =>
      decide (isListed dir e.1 = true ∧ e.2 ≠ .folder)).map (·.1) := by
  rw [filesBelow]
  congr 1
  refine List.filter_congr fun e he => ?_
  obtain ⟨-, top, -, hentry⟩ := mem_entriesBelow_iff.mp he
  rw [Bool.eq_iff_iff, Bool.and_eq_true, decide_eq_true_eq]
  refine and_congr_right fun _ => ?_
  cases h : e.2 with
  | file content executable => simp [countsAsFile]
  | folder => simp [countsAsFile]
  | link target =>
    rw [h] at hentry
    exact absurd hentry (ht _ _)

end UnusedAssets.FileTree
