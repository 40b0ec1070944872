import UnusedAssets.Proofs.FileTree.LinkFree
import UnusedAssets.Proofs.FileTree.Writing

/-!
# Where a file is written

`LeadsToWrite` says at which location a file is written at the end of some steps, and
`resolveToWrite_eq_ok_iff` ties it to the bounded walk. Which files there are makes no difference to
that: in two trees with the same folders and links a path is written to in both or in neither, and at
the same location (`canWrite_congr`). Whether it can be written does not depend on the text either.
-/

namespace UnusedAssets

open Text

/-- Where one step of a path leads from a folder, by the text of the step alone. -/
def Location.after (here : Location) (step : Bytes) : Location :=
  if step = "." then here else if step = ".." then here.dropLast else here ++ [step]

/-- Where a path leads from a folder, by its text alone. -/
def Location.join (here : Location) (path : Bytes) : Location :=
  (Path.parts path).foldl Location.after (FileTree.origin here path)

namespace FileTree

/-- A file may be written at a location: nothing stands there, or a file. -/
def IsFreeFor (t : FileTree) (l : Location) : Prop :=
  ∀ e, t.lookup? l = some e → ∃ content executable, e = .file content executable

def SameFrame (t t' : FileTree) : Prop :=
  ∀ l e, (∀ content executable, e ≠ .file content executable) →
    (t.lookup? l = some e ↔ t'.lookup? l = some e)

/-- At the end of the steps `todo` from `here` a file is written at a location, through the links at
the locations `links`. The last of the steps is a name. -/
inductive LeadsToWrite (t : FileTree) : Location → List Bytes → List Location → Location → Prop
  | last {here : Location} {step : Bytes} (plain : step ≠ "." ∧ step ≠ "..")
      (short : step.length ≤ nameLimit) (folder : t.isFolderAt here = true)
      (free : t.IsFreeFor (here ++ [step])) : LeadsToWrite t here [step] [] (here ++ [step])
  | stay {here : Location} {step : Bytes} {rest : List Bytes} {links : List Location}
      {l : Location} (dot : step = ".") (folder : t.isFolderAt here = true)
      (walk : LeadsToWrite t here rest links l) : LeadsToWrite t here (step :: rest) links l
  | up {here : Location} {step : Bytes} {rest : List Bytes} {links : List Location}
      {l : Location} (dots : step = "..") (folder : t.isFolderAt here = true)
      (walk : LeadsToWrite t here.dropLast rest links l) : LeadsToWrite t here (step :: rest) links l
  | enter {here : Location} {step : Bytes} {rest : List Bytes} {links : List Location}
      {l : Location} (entry : t.lookup? (here ++ [step]) = some .folder)
      (walk : LeadsToWrite t (here ++ [step]) rest links l) :
      LeadsToWrite t here (step :: rest) links l
  | jump {here : Location} {step target : Bytes} {rest : List Bytes} {links : List Location}
      {l : Location} (entry : t.lookup? (here ++ [step]) = some (.link target))
      (walk : LeadsToWrite t (origin here target) (steps target ++ rest) links l) :
      LeadsToWrite t here (step :: rest) ((here ++ [step]) :: links) l

variable {t t' : FileTree} {here l m cwd : Location} {todo : List Bytes} {links : List Location}
  {path : Bytes} {text : String} {slash : Bool}

namespace SameFrame

theorem refl (t : FileTree) : t.SameFrame t := fun _ _ _ => Iff.rfl

theorem symm (h : t.SameFrame t') : t'.SameFrame t := fun l e he => (h l e he).symm

theorem trans {t₁ t₂ t₃ : FileTree} (h : t₁.SameFrame t₂) (h' : t₂.SameFrame t₃) :
    t₁.SameFrame t₃ := fun l e he => (h l e he).trans (h' l e he)

theorem folder_iff (h : t.SameFrame t') : t.lookup? l = some .folder ↔ t'.lookup? l = some .folder :=
  h l .folder (by simp)

theorem isFolderAt (h : t.SameFrame t') (hl : t.isFolderAt l = true) : t'.isFolderAt l = true :=
  isFolderAt_iff.mpr (h.folder_iff.mp (isFolderAt_iff.mp hl))

theorem link_iff (h : t.SameFrame t') {target : Bytes} :
    t.lookup? l = some (.link target) ↔ t'.lookup? l = some (.link target) :=
  h l (.link target) (by simp)

theorem linkFree (h : t.SameFrame t') (ht : t.LinkFree) : t'.LinkFree :=
  fun l target hl => ht l target (h.link_iff.mpr hl)

theorem isFreeFor (h : t.SameFrame t') (hl : t.IsFreeFor l) : t'.IsFreeFor l := by
  intro e he
  by_contra hfile
  simp only [not_exists] at hfile
  obtain ⟨content, executable, rfl⟩ := hl e ((h l e hfile).mpr he)
  exact hfile content executable rfl

end SameFrame

theorem not_folder_of_free (hfree : t.IsFreeFor l) : t.lookup? l ≠ some .folder := by
  intro hfolder
  obtain ⟨content, executable, he⟩ := hfree _ hfolder
  exact absurd he (by simp)

namespace LeadsToWrite

theorem ne_nil (h : t.LeadsToWrite here todo links l) : todo ≠ [] := by
  cases h <;> simp

/-- A path that ends in a dot, or in a slash, is not written to. -/
theorem getLast?_ne_dot (h : t.LeadsToWrite here todo links l) :
    todo.getLast? ≠ some (encode ".") := by
  induction h with
  | last plain _ _ _ => simpa using plain.1
  | stay _ _ walk ih => rwa [List.getLast?_cons_of_ne_nil walk.ne_nil]
  | up _ _ walk ih => rwa [List.getLast?_cons_of_ne_nil walk.ne_nil]
  | enter _ walk ih => rwa [List.getLast?_cons_of_ne_nil walk.ne_nil]
  | @jump here step target rest links l entry walk ih =>
    by_cases hrest : rest = []
    · subst hrest
      have hname := isName_of_entry entry
      simpa using hname.2.1
    · have hlast := List.getLast?_eq_some_getLast hrest
      rw [List.getLast?_append, hlast, Option.some_or] at ih
      rwa [List.getLast?_cons_of_ne_nil hrest, hlast]

theorem endsInSlash (h : t.LeadsToWrite here (steps path) links l) :
    Path.endsInSlash path = false ∧ steps path = Path.parts path := by
  cases hs : Path.endsInSlash path with
  | true =>
    have hdot : (steps path).getLast? = some (encode ".") := by simp [steps, hs]
    exact absurd hdot h.getLast?_ne_dot
  | false => exact ⟨rfl, by simp [steps, hs]⟩

/-- A file is written in a folder, where nothing or a file stands. -/
theorem place (h : t.LeadsToWrite here todo links l) :
    l ≠ [] ∧ t.lookup? l.dropLast = some .folder ∧ t.IsFreeFor l := by
  induction h with
  | last _ _ folder free => exact ⟨by simp, by simpa using isFolderAt_iff.mp folder, free⟩
  | stay _ _ _ ih => exact ih
  | up _ _ _ ih => exact ih
  | enter _ _ ih => exact ih
  | jump _ _ ih => exact ih

theorem congr (h : t.LeadsToWrite here todo links l) (hframe : t.SameFrame t') :
    t'.LeadsToWrite here todo links l := by
  induction h with
  | last plain short folder free =>
    exact .last plain short (hframe.isFolderAt folder) (hframe.isFreeFor free)
  | stay dot folder _ ih => exact .stay dot (hframe.isFolderAt folder) ih
  | up dots folder _ ih => exact .up dots (hframe.isFolderAt folder) ih
  | enter entry _ ih => exact .enter (hframe.folder_iff.mp entry) ih
  | jump entry _ ih => exact .jump (hframe.link_iff.mp entry) ih

/-- Once a file is there, the same steps lead to it. -/
theorem leads {content : Bytes} {executable : Bool} (h : t.LeadsToWrite here todo links l)
    (hfile : t.lookup? l = some (.file content executable)) : t.Leads here todo links l := by
  induction h with
  | last _ _ _ _ => exact .enter hfile (by simp) (.done _)
  | stay dot folder _ ih => exact .stay dot folder (ih hfile)
  | up dots folder _ ih => exact .up dots folder (ih hfile)
  | enter entry _ ih => exact .enter entry (by simp) (ih hfile)
  | jump entry _ ih => exact .jump entry (ih hfile)

end LeadsToWrite

theorem leadsToWrite_of_followToWrite {n : Nat} (h : t.followToWrite n here todo slash = .ok l) :
    slash = false ∧ ∃ links, links.length ≤ n ∧ t.LeadsToWrite here todo links l := by
  fun_induction followToWrite t n here todo slash with
  | case4 n here slash rest hfolder _ ih =>
    obtain ⟨rfl, links, hn, hw⟩ := ih h
    exact ⟨rfl, links, hn, .stay rfl (by simpa using hfolder) hw⟩
  | case5 n here slash rest hfolder _ _ ih =>
    obtain ⟨rfl, links, hn, hw⟩ := ih h
    exact ⟨rfl, links, hn, .up rfl (by simpa using hfolder) hw⟩
  | case7 n here slash step rest hfolder hlast hdot hdots hsize hnone hempty =>
    obtain rfl := List.isEmpty_iff.mp hempty
    obtain rfl := Except.ok.inj h
    refine ⟨by simp_all, [], by simp, .last ⟨hdot, hdots⟩ (by omega) (by simpa using hfolder) ?_⟩
    simp [IsFreeFor, hnone]
  | case10 here slash step rest _ hlast _ _ _ target n entry hempty ih =>
    obtain rfl := List.isEmpty_iff.mp hempty
    obtain ⟨hslash, links, hn, hw⟩ := ih h
    refine ⟨by simp_all, (here ++ [step]) :: links, by simp; omega, .jump entry ?_⟩
    simpa [steps, hslash] using hw
  | case11 here slash step rest _ _ _ _ _ target n entry _ ih =>
    obtain ⟨rfl, links, hn, hw⟩ := ih h
    exact ⟨rfl, (here ++ [step]) :: links, by simp; omega, .jump entry hw⟩
  | case12 here slash step rest hfolder hlast hdot hdots hsize content executable n entry hempty =>
    obtain rfl := List.isEmpty_iff.mp hempty
    obtain rfl := Except.ok.inj h
    refine ⟨by simp_all, [], by simp, .last ⟨hdot, hdots⟩ (by omega) (by simpa using hfolder) ?_⟩
    intro e he
    exact ⟨content, executable, Option.some.inj (he.symm.trans entry)⟩
  | case13 here slash step rest _ _ _ _ _ content executable n entry hrest ih =>
    -- Behind a file no step leads on.
    obtain ⟨name, rest, rfl⟩ := List.exists_cons_of_ne_nil (by simpa using hrest)
    have hnot : t.isFolderAt (here ++ [step]) = false := by simp [isFolderAt, entry]
    rw [followToWrite.eq_def] at h
    simp [hnot] at h
  | case15 here slash step rest _ _ _ _ _ n entry _ ih =>
    obtain ⟨rfl, links, hn, hw⟩ := ih h
    exact ⟨rfl, links, hn, .enter entry hw⟩
  | _ => cases h

theorem LeadsToWrite.followToWrite {n : Nat} (h : t.LeadsToWrite here todo links l)
    (hn : links.length ≤ n) : t.followToWrite n here todo false = .ok l := by
  induction h generalizing n with
  | @last here step plain short folder free =>
    rw [followToWrite.eq_def]
    cases he : t.lookup? (here ++ [step]) with
    | none => simp [folder, plain, Nat.not_lt.mpr short, he]
    | some e =>
      obtain ⟨content, executable, rfl⟩ := free _ he
      simp [folder, plain, Nat.not_lt.mpr short, he]
  | stay dot folder walk ih =>
    rw [followToWrite.eq_def]
    simpa [dot, folder, walk.ne_nil] using ih hn
  | up dots folder walk ih =>
    rw [followToWrite.eq_def]
    simpa [dots, folder, walk.ne_nil] using ih hn
  | enter entry walk ih =>
    have hname := isName_of_entry entry
    rw [followToWrite.eq_def]
    simpa [isFolderAt_of_entry entry, hname.2.1, hname.2.2.1, Nat.not_lt.mpr hname.2.2.2.2.2,
      entry, walk.ne_nil] using ih hn
  | @jump here step target rest links l entry walk ih =>
    have hname := isName_of_entry entry
    obtain ⟨k, rfl⟩ : ∃ k, n = k + 1 := ⟨n - 1, by simp at hn; omega⟩
    have hwalk := ih (n := k) (by simpa using hn)
    rw [followToWrite.eq_def]
    simp only [isFolderAt_of_entry entry, hname.2.1, hname.2.2.1,
      Nat.not_lt.mpr hname.2.2.2.2.2, Bool.not_true, Bool.false_eq_true, ↓reduceIte, entry]
    by_cases hrest : rest = []
    · subst hrest
      rw [List.append_nil] at walk hwalk
      obtain ⟨hslash, hsteps⟩ := walk.endsInSlash
      simpa [hslash, hsteps] using hwalk
    · simpa [hrest] using hwalk

theorem resolveToWrite_eq_ok_iff : t.resolveToWrite cwd path = .ok l ↔ pathFault? path = none ∧
    ∃ links, links.length ≤ linkLimit ∧ t.LeadsToWrite (origin cwd path) (steps path) links l := by
  rw [resolveToWrite]
  cases hp : pathFault? path with
  | some fault => simp
  | none =>
    simp only [true_and]
    constructor
    · intro h
      obtain ⟨hslash, links, hn, hw⟩ := leadsToWrite_of_followToWrite h
      exact ⟨links, hn, by simpa [steps, hslash] using hw⟩
    · rintro ⟨links, hn, hw⟩
      obtain ⟨hslash, hsteps⟩ := hw.endsInSlash
      rw [hslash, ← hsteps]
      exact hw.followToWrite hn

/-- A file can be written to a path, and is written at a location. -/
structure CanWrite (t : FileTree) (cwd : Location) (path : Bytes) (l : Location) : Prop where
  leads : t.resolveToWrite cwd path = .ok l
  names : ∀ name ∈ l, IsName name

theorem CanWrite.unique (h : t.CanWrite cwd path l) (h' : t.CanWrite cwd path m) : l = m :=
  Except.ok.inj (h.leads.symm.trans h'.leads)

theorem CanWrite.place (h : t.CanWrite cwd path l) :
    l ≠ [] ∧ t.lookup? l.dropLast = some .folder ∧ t.IsFreeFor l := by
  obtain ⟨-, links, -, hw⟩ := resolveToWrite_eq_ok_iff.mp h.leads
  exact hw.place

theorem CanWrite.congr (hframe : t.SameFrame t') (h : t.CanWrite cwd path l) :
    t'.CanWrite cwd path l := by
  obtain ⟨hfault, links, hn, hw⟩ := resolveToWrite_eq_ok_iff.mp h.leads
  exact ⟨resolveToWrite_eq_ok_iff.mpr ⟨hfault, links, hn, hw.congr hframe⟩, h.names⟩

/-- The files in a tree do not matter for where a path is written to. -/
theorem canWrite_congr (hframe : t.SameFrame t') :
    t.CanWrite cwd path l ↔ t'.CanWrite cwd path l :=
  ⟨.congr hframe, .congr hframe.symm⟩

/-- A name that is not taken can be written to. -/
theorem canWrite_new {name : Bytes} (h : IsName name) (hcwd : t.lookup? cwd = some .folder)
    (hnew : t.lookup? (cwd ++ [name]) = none) :
    t.CanWrite cwd name (cwd ++ [name]) :=
  ⟨resolveToWrite_new h hcwd hnew,
    List.forall_mem_append.mpr ⟨isName_of_lookup? hcwd, by simpa using h⟩⟩

theorem CanWrite.exists_put? (h : t.CanWrite cwd path l) (content : Bytes) (executable : Bool) :
    ∃ t', t.put? l (.file content executable) = some t' := by
  obtain ⟨hne, hdir, hfree⟩ := h.place
  exact FileTree.exists_put? (fits_file hne h.names hdir (not_folder_of_free hfree))

theorem CanWrite.exists_writeText (h : t.CanWrite cwd path l) (text : String) : ∃ t',
    t.writeText cwd path text = .ok t' ∧ ∀ m, t'.lookup? m =
      if m = l then some (.file (encode text) (t.isExecutableAt l)) else t.lookup? m := by
  obtain ⟨t', ht'⟩ := h.exists_put? (encode text) (t.isExecutableAt l)
  refine ⟨t', ?_, lookup?_put? ht'⟩
  rw [writeText, h.leads]
  simp only [ht']

theorem exists_writeText_error (h : ∀ l, ¬ t.CanWrite cwd path l) (text : String) :
    ∃ fault, t.writeText cwd path text = .error fault := by
  rw [writeText]
  split
  · exact ⟨_, rfl⟩
  · next l hl =>
    cases hput : t.put? l (.file (encode text) (t.isExecutableAt l)) with
    | none => exact ⟨_, rfl⟩
    | some t' =>
      have hfits : t.Fits l (.file (encode text) (t.isExecutableAt l)) := by
        by_contra hfits
        rw [put?, dif_neg hfits] at hput
        exact absurd hput (by simp)
      exact absurd ⟨hl, hfits.2.1⟩ (h l)

theorem canWrite_of_writeText (h : t.writeText cwd path text = .ok t') : ∃ l, t.CanWrite cwd path l ∧
    ∀ m, t'.lookup? m =
      if m = l then some (.file (encode text) (t.isExecutableAt l)) else t.lookup? m := by
  by_cases hcan : ∃ l, t.CanWrite cwd path l
  · obtain ⟨l, hcan⟩ := hcan
    obtain ⟨t₁, hwrite, hlookup⟩ := hcan.exists_writeText text
    obtain rfl := Except.ok.inj (hwrite.symm.trans h)
    exact ⟨l, hcan, hlookup⟩
  · obtain ⟨fault, hfault⟩ := exists_writeText_error (not_exists.mp hcan) text
    exact absurd (hfault.symm.trans h) (by simp)

/-- Where a tree got a file in place of nothing or of a file, the folders and links stayed. -/
theorem sameFrame_of_written {e : Entry} (hfree : t.IsFreeFor l)
    (hfile : ∃ content executable, e = .file content executable)
    (h : ∀ m, t'.lookup? m = if m = l then some e else t.lookup? m) : t.SameFrame t' := by
  intro m f hf
  rw [h]
  by_cases hm : m = l
  · subst hm
    rw [if_pos rfl]
    refine iff_of_false ?_ ?_
    · intro hl
      obtain ⟨content, executable, rfl⟩ := hfree _ hl
      exact hf content executable rfl
    · intro he
      obtain ⟨content, executable, rfl⟩ := hfile
      exact hf content executable (Option.some.inj he).symm
  · rw [if_neg hm]

theorem LinkFree.leadsToWrite_eq (ht : t.LinkFree) (h : t.LeadsToWrite here todo links l) :
    l = todo.foldl Location.after here := by
  induction h with
  | last plain _ _ _ => simp [Location.after, plain]
  | stay dot _ _ ih => simpa [Location.after, dot] using ih
  | up dots _ _ ih => simpa [Location.after, dots] using ih
  | enter entry _ ih =>
    have hname := isName_of_entry entry
    simpa [Location.after, hname.2.1, hname.2.2.1] using ih
  | jump entry _ _ => exact absurd entry (ht _ _)

/-- Without links a file is written where the text of its path says. -/
theorem LinkFree.canWrite_eq (ht : t.LinkFree) (h : t.CanWrite cwd path l) :
    l = Location.join cwd path := by
  obtain ⟨-, links, -, hw⟩ := resolveToWrite_eq_ok_iff.mp h.leads
  rw [Location.join, ← hw.endsInSlash.2]
  exact ht.leadsToWrite_eq hw

end FileTree

namespace RemovalScript

open FileTree

variable {t : FileTree} {cwd l : Location} {path : String}

/-- A script that can be written is all that the tree then has more, and may be run. -/
theorem exists_write_of_canWrite (h : t.CanWrite cwd path l) (contents : String) : ∃ t',
    write t cwd path contents = .ok t' ∧ ∀ m, t'.lookup? m =
      if m = l then some (.file (encode contents) true) else t.lookup? m := by
  obtain ⟨t₁, hwrite, hlookup⟩ := h.exists_writeText contents
  have hfile : t₁.lookup? l = some (.file (encode contents) (t.isExecutableAt l)) := by
    rw [hlookup, if_pos rfl]
  have hframe : t.SameFrame t₁ := sameFrame_of_written h.place.2.2 ⟨_, _, rfl⟩ hlookup
  have hagain : t₁.CanWrite cwd path l := h.congr hframe
  obtain ⟨hfault, links, hn, hw⟩ := resolveToWrite_eq_ok_iff.mp hagain.leads
  have hresolve : t₁.resolve cwd path = .ok l :=
    resolve_eq_ok_iff.mpr ⟨hfault, links, hn, hw.leads hfile⟩
  obtain ⟨t₂, hput⟩ := hagain.exists_put? (encode contents) true
  refine ⟨t₂, ?_, fun m => ?_⟩
  · rw [write, hwrite]
    simp only [allowRun, hresolve, hfile, hput]
  · rw [lookup?_put? hput, hlookup]
    split <;> rfl

/-- A script is written under a name that is not taken, may be run, and is all that is new. -/
theorem exists_write {name : String} (h : IsName name) (hcwd : t.lookup? cwd = some .folder)
    (hnew : t.lookup? (cwd ++ [encode name]) = none) (contents : String) :
    ∃ t', write t cwd name contents = .ok t' ∧ ∀ m, t'.lookup? m =
      if m = cwd ++ [encode name] then some (.file (encode contents) true) else t.lookup? m :=
  exists_write_of_canWrite (canWrite_new h hcwd hnew) contents

theorem exists_write_error (h : ∀ l, ¬ t.CanWrite cwd path l) (contents : String) :
    ∃ f, write t cwd path contents = .error f := by
  obtain ⟨fault, hfault⟩ := exists_writeText_error h contents
  exact ⟨.script path fault.message, by rw [write, hfault]⟩

theorem canWrite_of_write {t' : FileTree} {contents : String}
    (h : write t cwd path contents = .ok t') : ∃ l, t.CanWrite cwd path l ∧
      ∀ m, t'.lookup? m = if m = l then some (.file (encode contents) true) else t.lookup? m := by
  by_cases hcan : ∃ l, t.CanWrite cwd path l
  · obtain ⟨l, hcan⟩ := hcan
    obtain ⟨t₁, hwrite, hlookup⟩ := exists_write_of_canWrite hcan contents
    obtain rfl := Except.ok.inj (hwrite.symm.trans h)
    exact ⟨l, hcan, hlookup⟩
  · obtain ⟨f, hf⟩ := exists_write_error (not_exists.mp hcan) contents
    exact absurd (hf.symm.trans h) (by simp)

end RemovalScript

end UnusedAssets
