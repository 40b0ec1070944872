import UnusedAssets.FileTree.Access
import UnusedAssets.Proofs.FileTree.Entries

/-!
# Walks along paths

`Leads` says where the steps of a path lead and which links are followed on the way, without a limit
on them. `follow_eq_ok_iff` is what ties it to the bounded walk: a path resolves if it leads
somewhere through no more links than the limit. A walk can be cut anywhere (`Leads.of_append`) and
has one end (`Leads.unique`).
-/

namespace UnusedAssets.FileTree

open Text

/-- From `here` the steps `todo` lead to a location, through the links at the locations `links`. -/
inductive Leads (t : FileTree) : Location → List Bytes → List Location → Location → Prop
  | done (here : Location) : Leads t here [] [] here
  | stay {here : Location} {step : Bytes} {rest : List Bytes} {links : List Location}
      {l : Location} (dot : step = ".") (folder : t.isFolderAt here = true)
      (walk : Leads t here rest links l) : Leads t here (step :: rest) links l
  | up {here : Location} {step : Bytes} {rest : List Bytes} {links : List Location}
      {l : Location} (dots : step = "..") (folder : t.isFolderAt here = true)
      (walk : Leads t here.dropLast rest links l) : Leads t here (step :: rest) links l
  | enter {here : Location} {step : Bytes} {rest : List Bytes} {links : List Location}
      {l : Location} {e : Entry} (entry : t.lookup? (here ++ [step]) = some e)
      (plain : ∀ target, e ≠ .link target) (walk : Leads t (here ++ [step]) rest links l) :
      Leads t here (step :: rest) links l
  | jump {here : Location} {step target : Bytes} {rest : List Bytes} {links : List Location}
      {l : Location} (entry : t.lookup? (here ++ [step]) = some (.link target))
      (walk : Leads t (origin here target) (steps target ++ rest) links l) :
      Leads t here (step :: rest) ((here ++ [step]) :: links) l

variable {t : FileTree} {here l m : Location} {todo more : List Bytes} {links : List Location}

theorem isName_of_entry {step : Bytes} {e : Entry} (h : t.lookup? (here ++ [step]) = some e) :
    IsName step := isName_of_lookup? h step (by simp)

theorem isFolderAt_of_entry {step : Bytes} {e : Entry}
    (h : t.lookup? (here ++ [step]) = some e) : t.isFolderAt here = true :=
  isFolderAt_iff.mpr (lookup?_of_append h (by simp))

theorem Leads.isFolderAt {step : Bytes} (h : Leads t here (step :: todo) links l) :
    t.isFolderAt here = true := by
  cases h with
  | stay _ folder _ => exact folder
  | up _ folder _ => exact folder
  | enter entry _ _ => exact isFolderAt_of_entry entry
  | jump entry _ => exact isFolderAt_of_entry entry

theorem Leads.exists_first {name : Bytes} (h : Leads t here (name :: todo) links l)
    (hname : IsName name) : ∃ e, t.lookup? (here ++ [name]) = some e := by
  cases h with
  | stay dot _ _ => exact absurd dot hname.2.1
  | up dots _ _ => exact absurd dots hname.2.2.1
  | enter entry _ _ => exact ⟨_, entry⟩
  | jump entry _ => exact ⟨_, entry⟩

theorem leads_of_follow {n : Nat} (h : t.follow n here todo = .ok l) :
    ∃ links, links.length ≤ n ∧ t.Leads here todo links l := by
  fun_induction follow t n here todo with
  | case1 n here =>
    obtain rfl : here = l := by simpa using h
    exact ⟨[], by simp, .done here⟩
  | case2 => exact absurd h (by simp)
  | case3 n here rest hf ih =>
    obtain ⟨links, hn, hw⟩ := ih h
    exact ⟨links, hn, .stay rfl (by simpa using hf) hw⟩
  | case4 n here rest hf _ ih =>
    obtain ⟨links, hn, hw⟩ := ih h
    exact ⟨links, hn, .up rfl (by simpa using hf) hw⟩
  | case5 => exact absurd h (by simp)
  | case6 => exact absurd h (by simp)
  | case7 => exact absurd h (by simp)
  | case8 here step rest _ _ _ _ target n entry ih =>
    obtain ⟨links, hn, hw⟩ := ih h
    exact ⟨(here ++ [step]) :: links, by simp; omega, .jump entry hw⟩
  | case9 here step rest _ _ _ _ e n hzero hsucc entry ih =>
    obtain ⟨links, hn, hw⟩ := ih h
    refine ⟨links, hn, .enter entry ?_ hw⟩
    intro target he
    cases n with
    | zero => exact hzero target rfl he
    | succ n => exact hsucc target n rfl he

theorem Leads.follow {n : Nat} (h : t.Leads here todo links l) (hn : links.length ≤ n) :
    t.follow n here todo = .ok l := by
  induction h generalizing n with
  | done here => rw [follow.eq_def]
  | stay dot folder _ ih =>
    rw [follow.eq_def]
    simpa [dot, folder] using ih hn
  | up dots folder _ ih =>
    rw [follow.eq_def]
    simpa [dots, folder] using ih hn
  | @enter here step rest links l e entry plain _ ih =>
    have hname := isName_of_entry entry
    rw [follow.eq_def]
    simp only [isFolderAt_of_entry entry, hname.2.1, hname.2.2.1,
      Nat.not_lt.mpr hname.2.2.2.2.2, Bool.not_true, Bool.false_eq_true, ↓reduceIte, entry]
    cases e with
    | link target => exact absurd rfl (plain target)
    | file content executable => exact ih hn
    | folder => exact ih hn
  | @jump here step target rest links l entry _ ih =>
    have hname := isName_of_entry entry
    obtain ⟨k, rfl⟩ : ∃ k, n = k + 1 := ⟨n - 1, by simp at hn; omega⟩
    rw [follow.eq_def]
    simp only [isFolderAt_of_entry entry, hname.2.1, hname.2.2.1,
      Nat.not_lt.mpr hname.2.2.2.2.2, Bool.not_true, Bool.false_eq_true, ↓reduceIte, entry]
    exact ih (by simpa using hn)

/-- A path resolves exactly to where its steps lead through no more links than the limit. -/
theorem follow_eq_ok_iff {n : Nat} :
    t.follow n here todo = .ok l ↔ ∃ links, links.length ≤ n ∧ t.Leads here todo links l :=
  ⟨leads_of_follow, fun ⟨_, hn, hw⟩ => hw.follow hn⟩

/-- The steps of a path lead to one place, through the same links. -/
theorem Leads.unique {links' : List Location} {l' : Location} (h : t.Leads here todo links l)
    (h' : t.Leads here todo links' l') : links = links' ∧ l = l' := by
  induction h generalizing links' l' with
  | done => cases h'; exact ⟨rfl, rfl⟩
  | stay dot _ _ ih =>
    cases h' with
    | stay _ _ w => exact ih w
    | up dots _ _ => exact absurd (dot.symm.trans dots) (by decide)
    | enter entry _ _ => exact absurd dot (isName_of_entry entry).2.1
    | jump entry _ => exact absurd dot (isName_of_entry entry).2.1
  | up dots _ _ ih =>
    cases h' with
    | stay dot _ _ => exact absurd (dot.symm.trans dots) (by decide)
    | up _ _ w => exact ih w
    | enter entry _ _ => exact absurd dots (isName_of_entry entry).2.2.1
    | jump entry _ => exact absurd dots (isName_of_entry entry).2.2.1
  | enter entry plain _ ih =>
    cases h' with
    | stay dot _ _ => exact absurd dot (isName_of_entry entry).2.1
    | up dots _ _ => exact absurd dots (isName_of_entry entry).2.2.1
    | enter _ _ w => exact ih w
    | jump entry' _ =>
      rw [entry, Option.some.injEq] at entry'
      exact absurd entry' (plain _)
  | jump entry _ ih =>
    cases h' with
    | stay dot _ _ => exact absurd dot (isName_of_entry entry).2.1
    | up dots _ _ => exact absurd dots (isName_of_entry entry).2.2.1
    | enter entry' plain _ =>
      rw [entry, Option.some.injEq] at entry'
      exact absurd entry'.symm (plain _)
    | jump entry' w =>
      rw [entry, Option.some.injEq, Entry.link.injEq] at entry'
      subst entry'
      obtain ⟨rfl, rfl⟩ := ih w
      exact ⟨rfl, rfl⟩

theorem Leads.append {links' : List Location} (h : t.Leads here todo links m)
    (h' : t.Leads m more links' l) : t.Leads here (todo ++ more) (links ++ links') l := by
  induction h with
  | done => exact h'
  | stay dot folder _ ih => exact .stay dot folder (ih h')
  | up dots folder _ ih => exact .up dots folder (ih h')
  | enter entry plain _ ih => exact .enter entry plain (ih h')
  | jump entry _ ih => exact .jump entry (List.append_assoc _ _ more ▸ ih h')

/-- A walk passes through the end of the first of its steps. -/
theorem Leads.of_append (h : t.Leads here (todo ++ more) links l) :
    ∃ m first last, links = first ++ last ∧ t.Leads here todo first m ∧
      t.Leads m more last l := by
  generalize hs : todo ++ more = all at h
  induction h generalizing todo with
  | done here =>
    obtain ⟨rfl, rfl⟩ := List.append_eq_nil_iff.mp hs
    exact ⟨here, [], [], rfl, .done here, .done here⟩
  | @stay here step rest links l dot folder w ih =>
    cases todo with
    | nil =>
      obtain rfl : more = step :: rest := hs
      exact ⟨here, [], links, rfl, .done here, .stay dot folder w⟩
    | cons step todo =>
      obtain ⟨rfl, rfl⟩ := List.cons.inj hs
      obtain ⟨m, first, last, rfl, hw, hw'⟩ := ih rfl
      exact ⟨m, first, last, rfl, .stay dot folder hw, hw'⟩
  | @up here step rest links l dots folder w ih =>
    cases todo with
    | nil =>
      obtain rfl : more = step :: rest := hs
      exact ⟨here, [], links, rfl, .done here, .up dots folder w⟩
    | cons step todo =>
      obtain ⟨rfl, rfl⟩ := List.cons.inj hs
      obtain ⟨m, first, last, rfl, hw, hw'⟩ := ih rfl
      exact ⟨m, first, last, rfl, .up dots folder hw, hw'⟩
  | @enter here step rest links l e entry plain w ih =>
    cases todo with
    | nil =>
      obtain rfl : more = step :: rest := hs
      exact ⟨here, [], links, rfl, .done here, .enter entry plain w⟩
    | cons step todo =>
      obtain ⟨rfl, rfl⟩ := List.cons.inj hs
      obtain ⟨m, first, last, rfl, hw, hw'⟩ := ih rfl
      exact ⟨m, first, last, rfl, .enter entry plain hw, hw'⟩
  | @jump here step target rest links l entry w ih =>
    cases todo with
    | nil =>
      obtain rfl : more = step :: rest := hs
      exact ⟨here, [], _, rfl, .done here, .jump entry w⟩
    | cons step todo =>
      obtain ⟨rfl, rfl⟩ := List.cons.inj hs
      obtain ⟨m, first, last, rfl, hw, hw'⟩ := ih (List.append_assoc _ _ _)
      exact ⟨m, _ :: first, last, rfl, .jump entry hw, hw'⟩

theorem leads_names {names : List Bytes} {e : Entry} (h : t.lookup? (here ++ names) = some e)
    (plain : ∀ target, e ≠ .link target) : t.Leads here names [] (here ++ names) := by
  induction names generalizing here with
  | nil => simpa using Leads.done here
  | cons name names ih =>
    rw [← List.singleton_append, ← List.append_assoc] at h ⊢
    have walk := ih h
    by_cases hn : names = []
    · subst hn
      rw [List.append_nil] at h
      exact .enter h plain walk
    · exact .enter (lookup?_of_append h hn) (by simp) walk

theorem Leads.eq_of_file {content : Bytes} {executable : Bool}
    (h : t.Leads here todo links l) (hh : t.lookup? here = some (.file content executable)) :
    todo = [] ∧ l = here := by
  cases todo with
  | nil => cases h; exact ⟨rfl, rfl⟩
  | cons step rest =>
    have folder := isFolderAt_iff.mp h.isFolderAt
    rw [hh] at folder
    exact absurd folder (by simp)

theorem Leads.exists_link {x : Location} (h : t.Leads here todo links l) (hx : x ∈ links) :
    ∃ target, t.lookup? x = some (.link target) := by
  induction h with
  | done => exact absurd hx List.not_mem_nil
  | stay _ _ _ ih => exact ih hx
  | up _ _ _ ih => exact ih hx
  | enter _ _ _ ih => exact ih hx
  | jump entry _ ih =>
    rcases List.mem_cons.mp hx with rfl | hx
    · exact ⟨_, entry⟩
    · exact ih hx

/-- A walk is the same in a tree that keeps the folders, the links on the way and the end. -/
theorem Leads.of_kept {t' : FileTree} (h : t.Leads here todo links l)
    (folders : ∀ x, t.lookup? x = some .folder → t'.lookup? x = some .folder)
    (kept : ∀ x, x = l ∨ x ∈ links → t'.lookup? x = t.lookup? x) :
    t'.Leads here todo links l := by
  have folderAt : ∀ x, t.isFolderAt x = true → t'.isFolderAt x = true := fun x hx =>
    isFolderAt_iff.mpr (folders x (isFolderAt_iff.mp hx))
  induction h with
  | done here => exact .done here
  | stay dot folder _ ih => exact .stay dot (folderAt _ folder) (ih kept)
  | up dots folder _ ih => exact .up dots (folderAt _ folder) (ih kept)
  | @enter here step rest links l e entry plain walk ih =>
    refine .enter ?_ plain (ih kept)
    cases e with
    | link target => exact absurd rfl (plain target)
    | folder => exact folders _ entry
    | file content executable =>
      obtain ⟨_, rfl⟩ := walk.eq_of_file entry
      rw [kept _ (.inl rfl), entry]
  | jump entry _ ih =>
    refine .jump ?_ (ih fun x hx => kept x (hx.imp_right (List.mem_cons_of_mem _)))
    rw [kept _ (.inr List.mem_cons_self), entry]

/-- A link on the way to a folder leads to no file. -/
theorem Leads.not_file_of_mem {d f : Location} {name : Bytes} {links' : List Location}
    (h : t.Leads here todo links l) (hl : t.lookup? l = some .folder)
    (hx : d ++ [name] ∈ links) (h' : t.Leads d [name] links' f) (content : Bytes)
    (executable : Bool) : t.lookup? f ≠ some (.file content executable) := by
  induction h with
  | done => exact absurd hx List.not_mem_nil
  | stay _ _ _ ih => exact ih hl hx
  | up _ _ _ ih => exact ih hl hx
  | enter _ _ _ ih => exact ih hl hx
  | @jump here step target rest links l entry walk ih =>
    rcases List.mem_cons.mp hx with he | hx
    -- The walk passes through the file that the link leads to, and ends there.
    · obtain ⟨rfl, rfl⟩ : d = here ∧ name = step := by
        simpa using List.append_inj' he rfl
      intro hf
      have hwhole : t.Leads d ([name] ++ rest) ((d ++ [name]) :: links) l := .jump entry walk
      obtain ⟨m, first, last, -, hfirst, hlast⟩ := hwhole.of_append
      obtain ⟨-, rfl⟩ := hfirst.unique h'
      obtain ⟨-, rfl⟩ := hlast.eq_of_file hf
      rw [hl] at hf
      exact absurd hf (by simp)
    · exact ih hl hx

end UnusedAssets.FileTree
