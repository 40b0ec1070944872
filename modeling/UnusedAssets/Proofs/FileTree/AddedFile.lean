import UnusedAssets.Proofs.FileTree.Destination
import UnusedAssets.Proofs.FileTree.Growth
import UnusedAssets.Proofs.FileTree.Removal

/-!
# Trees with one more file

One tree may be another with a file at a location where nothing was, or another file. Walks that do
not end at that file are the same in both trees (`AddsFile.leads_of_ne`), and those that do pass at
their last step a name that leads there, its own or that of a link. So a path leads to the same in
both trees unless it ends in such a name (`AddsFile.entryAt_iff`), and a listing shows the same, such
names apart (`AddsFile.mem_filesBelow_iff`).
-/

namespace UnusedAssets.FileTree

open Text

/-- One tree is another with a file at a location, whatever file was there. -/
structure AddsFile (t t' : FileTree) (l : Location) : Prop where
  elsewhere : ∀ m, m ≠ l → t'.lookup? m = t.lookup? m
  free : t.IsFreeFor l
  file : ∃ content executable, t'.lookup? l = some (.file content executable)

/-- A name in a folder leads to a location, as the name of what stands there or of a link. -/
def NameLeadsTo (t : FileTree) (here : Location) (name : Bytes) (l : Location) : Prop :=
  ∃ links, t.Leads here [name] links l

variable {t t' : FileTree} {here l m cwd top : Location} {todo names outer : List Bytes}
  {links : List Location} {path dir name : Bytes} {e : Entry}

theorem nameLeadsTo_self (he : t.lookup? (here ++ [name]) = some e)
    (plain : ∀ target, e ≠ .link target) : t.NameLeadsTo here name (here ++ [name]) :=
  ⟨[], .enter he plain (.done _)⟩

theorem LinkFree.eq_of_nameLeadsTo (ht : t.LinkFree) (hname : IsName name)
    (h : t.NameLeadsTo here name l) : l = here ++ [name] := by
  obtain ⟨links, hw⟩ := h
  exact ht.leads_eq hw (by simpa using hname)

/-- A path with a name behind it leads where the name leads from some folder. -/
theorem exists_nameLeadsTo (hname : IsName name) (hr : t.resolve cwd (Path.join dir name) = .ok l) :
    ∃ here, t.NameLeadsTo here name l := by
  obtain ⟨-, links, -, hw⟩ := resolve_eq_ok_iff.mp hr
  have hbelow : Path.join dir name = pathBelow dir [name] := rfl
  rw [hbelow] at hw
  obtain ⟨here, first, last, -, -, hw⟩ := hw.of_append_names (by simp) (by simpa using hname)
  exact ⟨here, last, hw⟩

/-- What a listing shows leads where its name leads from the folder in which it stands. -/
theorem nameLeadsTo_of_listed (hdir : t.resolve cwd dir = .ok top)
    (he : t.lookup? (top ++ (outer ++ [name])) = some e)
    (hr : t.resolve cwd (pathBelow dir (outer ++ [name])) = .ok l) :
    t.NameLeadsTo (top ++ outer) name l := by
  have hnames : ∀ n ∈ outer ++ [name], IsName n := fun n hn =>
    isName_of_lookup? he n (List.mem_append_right _ hn)
  have hfolder : t.lookup? (top ++ outer) = some .folder := by
    rw [← List.append_assoc] at he
    exact lookup?_of_append he (by simp)
  obtain ⟨-, links, -, hw⟩ := resolve_eq_ok_iff.mp hr
  obtain ⟨x, first, last, -, htop, hw⟩ := hw.of_append_names (by simp) hnames
  obtain ⟨-, links', -, hdir⟩ := resolve_eq_ok_iff.mp hdir
  obtain ⟨-, rfl⟩ := htop.unique hdir
  obtain ⟨y, first', last', -, houter, hw⟩ := hw.of_append
  obtain ⟨-, rfl⟩ := (leads_names hfolder (by simp)).unique houter
  exact ⟨last', hw⟩

theorem lookup?_removed {content : Bytes} {executable : Bool}
    (h : t.lookup? l = some (.file content executable)) (m : Location) :
    (t.removeAll [l]).lookup? m = if m = l then none else t.lookup? m := by
  have hleaves : ∀ x ∈ [l], ∃ e, t.lookup? x = some e ∧ e ≠ .folder := by
    intro x hx
    rw [List.mem_singleton.mp hx]
    exact ⟨_, h, by simp⟩
  refine Option.ext fun e => ?_
  rw [lookup?_removeAll_of_leaves hleaves, List.mem_singleton]
  by_cases hm : m = l
  · simp [hm]
  · simp [hm]

theorem addsFile_of_removed {content : Bytes} {executable : Bool}
    (h : t.lookup? l = some (.file content executable)) : (t.removeAll [l]).AddsFile t l := by
  refine ⟨fun m hm => ?_, fun e he => ?_, content, executable, h⟩
  · rw [lookup?_removed h, if_neg hm]
  · rw [lookup?_removed h, if_pos rfl] at he
    exact absurd he (by simp)

theorem addsFile_of_written {content : Bytes} {executable : Bool} (h : t.CanWrite cwd path l)
    (hlookup : ∀ m, t'.lookup? m =
      if m = l then some (.file content executable) else t.lookup? m) : t.AddsFile t' l :=
  ⟨fun m hm => by rw [hlookup, if_neg hm], h.place.2.2, content, executable,
    by rw [hlookup, if_pos rfl]⟩

namespace AddsFile

theorem ne_of_folder (h : t.AddsFile t' l) (hm : t'.lookup? m = some .folder) : m ≠ l := by
  rintro rfl
  obtain ⟨content, executable, hfile⟩ := h.file
  exact absurd (hm.symm.trans hfile) (by simp)

theorem not_folder (h : t.AddsFile t' l) : t'.lookup? l ≠ some .folder :=
  fun hl => h.ne_of_folder hl rfl

theorem sameFrame (h : t.AddsFile t' l) : t.SameFrame t' := by
  obtain ⟨content, executable, hfile⟩ := h.file
  refine sameFrame_of_written h.free ⟨content, executable, rfl⟩ fun m => ?_
  split
  · next hm => rw [hm, hfile]
  · next hm => exact h.elsewhere m hm

theorem growsTo (h : t.AddsFile t' l) : t.GrowsTo t' fun _ _ _ => True := by
  intro m e he
  by_cases hm : m = l
  · subst hm
    obtain ⟨content, executable, rfl⟩ := h.free e he
    obtain ⟨content', executable', hfile⟩ := h.file
    exact ⟨_, hfile, trivial⟩
  · refine ⟨e, by rw [h.elsewhere m hm, he], ?_⟩
    cases e <;> trivial

/-- A walk that does not end at the file was possible before. -/
theorem leads_of_ne (h : t.AddsFile t' l) (hw : t'.Leads here todo links m) (hm : m ≠ l) :
    t.Leads here todo links m := by
  refine hw.of_kept (fun x hx => ?_) fun x hx => ?_
  · rw [← h.elsewhere x (h.ne_of_folder hx), hx]
  · refine (h.elsewhere x ?_).symm
    rcases hx with rfl | hx
    · exact hm
    · obtain ⟨target, hlink⟩ := hw.exists_link hx
      rintro rfl
      obtain ⟨content, executable, hfile⟩ := h.file
      exact absurd (hlink.symm.trans hfile) (by simp)

theorem resolve_of_ne (h : t.AddsFile t' l) (hr : t'.resolve cwd path = .ok m) (hm : m ≠ l) :
    t.resolve cwd path = .ok m := by
  obtain ⟨hfault, links, hn, hw⟩ := resolve_eq_ok_iff.mp hr
  exact resolve_eq_ok_iff.mpr ⟨hfault, links, hn, h.leads_of_ne hw hm⟩

theorem entryAt_iff_of_ne (h : t.AddsFile t' l) (hne : ∀ m, t'.resolve cwd path = .ok m → m ≠ l) :
    t'.entryAt cwd path = .ok e ↔ t.entryAt cwd path = .ok e := by
  rw [entryAt_eq_ok_iff, entryAt_eq_ok_iff]
  constructor
  · rintro ⟨m, hr, hm⟩
    have hml := hne m hr
    exact ⟨m, h.resolve_of_ne hr hml, by rw [← h.elsewhere m hml, hm]⟩
  · rintro ⟨m, hr, hm⟩
    have hr' := h.growsTo.resolve hr
    exact ⟨m, hr', by rw [h.elsewhere m (hne m hr'), hm]⟩

theorem resolve_folder_iff (h : t.AddsFile t' l) :
    (t'.resolve cwd path = .ok m ∧ t'.lookup? m = some .folder) ↔
      t.resolve cwd path = .ok m ∧ t.lookup? m = some .folder := by
  constructor
  · rintro ⟨hr, hm⟩
    exact ⟨h.resolve_of_ne hr (h.ne_of_folder hm), h.sameFrame.folder_iff.mpr hm⟩
  · rintro ⟨hr, hm⟩
    exact ⟨h.growsTo.resolve hr, h.growsTo.folder hm⟩

theorem isFolder_eq (h : t.AddsFile t' l) : t'.isFolder cwd path = t.isFolder cwd path := by
  rw [Bool.eq_iff_iff, isFolder_iff, isFolder_iff]
  exact exists_congr fun m => h.resolve_folder_iff

/-- A path that ends in a name that nowhere leads to the file leads to the same. -/
theorem entryAt_iff (h : t.AddsFile t' l) (hname : IsName name)
    (hhidden : ∀ here, ¬ t'.NameLeadsTo here name l) :
    t'.entryAt cwd (Path.join dir name) = .ok e ↔ t.entryAt cwd (Path.join dir name) = .ok e := by
  refine h.entryAt_iff_of_ne fun m hr => ?_
  rintro rfl
  obtain ⟨here, hleads⟩ := exists_nameLeadsTo hname hr
  exact hhidden here hleads

theorem isFile_eq (h : t.AddsFile t' l) (hname : IsName name)
    (hhidden : ∀ here, ¬ t'.NameLeadsTo here name l) :
    t'.isFile cwd (Path.join dir name) = t.isFile cwd (Path.join dir name) := by
  rw [Bool.eq_iff_iff, isFile_iff, isFile_iff]
  refine exists_congr fun content => exists_congr fun executable => ?_
  exact h.entryAt_iff hname hhidden

theorem pathExists_eq (h : t.AddsFile t' l) (hname : IsName name)
    (hhidden : ∀ here, ¬ t'.NameLeadsTo here name l) :
    t'.pathExists cwd (Path.join dir name) = t.pathExists cwd (Path.join dir name) := by
  rw [Bool.eq_iff_iff, pathExists_iff, pathExists_iff]
  exact exists_congr fun e => h.entryAt_iff hname hhidden

theorem entryAt_listed_iff (h : t.AddsFile t' l) (hdir : t'.resolve cwd dir = .ok top)
    (he : t'.lookup? (top ++ (outer ++ [name])) = some e)
    (hhidden : ¬ t'.NameLeadsTo (top ++ outer) name l) {f : Entry} :
    t'.entryAt cwd (pathBelow dir (outer ++ [name])) = .ok f ↔
      t.entryAt cwd (pathBelow dir (outer ++ [name])) = .ok f := by
  refine h.entryAt_iff_of_ne fun m hr => ?_
  rintro rfl
  exact hhidden (nameLeadsTo_of_listed hdir he hr)

/-- A listing shows the same, what leads to the file apart. -/
theorem mem_filesBelow_iff (h : t.AddsFile t' l)
    (hhidden : ∀ top, t'.resolve cwd dir = .ok top → t'.lookup? top = some .folder →
      ¬ t'.NameLeadsTo (top ++ outer) name l) :
    outer ++ [name] ∈ t'.filesBelow cwd dir ↔ outer ++ [name] ∈ t.filesBelow cwd dir := by
  refine ⟨fun hn => ?_, h.growsTo.mem_filesBelow⟩
  obtain ⟨hne, hlisted, top, e, htop, he, hcounts⟩ := FileTree.mem_filesBelow_iff.mp hn
  have hfolder := lookup?_of_append he hne
  have hname := hhidden top htop hfolder
  have hkept (plain : ∀ target, e ≠ .link target) : top ++ (outer ++ [name]) ≠ l := by
    rintro rfl
    rw [← List.append_assoc] at he hname
    exact hname (nameLeadsTo_self he plain)
  refine FileTree.mem_filesBelow_iff.mpr ⟨hne, hlisted, top, e,
    h.resolve_of_ne htop (h.ne_of_folder hfolder), ?_⟩
  cases e with
  | file content executable =>
    exact ⟨by rw [← h.elsewhere _ (hkept (by simp)), he], rfl⟩
  | folder => exact absurd hcounts (by simp [countsAsFile])
  | link target =>
    obtain ⟨content, executable, hentry⟩ := isFile_iff.mp hcounts
    refine ⟨h.sameFrame.link_iff.mpr he, isFile_iff.mpr ⟨content, executable, ?_⟩⟩
    exact (h.entryAt_listed_iff htop he hname).mp hentry

end AddsFile

end UnusedAssets.FileTree
