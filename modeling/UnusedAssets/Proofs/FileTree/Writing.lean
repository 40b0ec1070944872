import UnusedAssets.Proofs.FileTree.Access
import UnusedAssets.Removal.Script

/-!
# Writing files

Where a file is put, the tree holds it afterwards, and what stands elsewhere stays (`lookup?_put?`).
A file is put under a name in the working directory if the name is not taken, and never in the place
of a folder (`RemovalScript.write_folder`).
-/

namespace UnusedAssets

open Text

namespace FileTree

variable {t t' : FileTree} {l m cwd : Location} {e : Entry} {name : Bytes} {content : Bytes}
  {executable : Bool}

theorem lookup?_put? (h : t.put? l e = some t') (m : Location) :
    t'.lookup? m = if m = l then some e else t.lookup? m := by
  unfold put? at h
  split at h
  · next hfits =>
    obtain rfl := Option.some.inj h
    unfold lookup?
    by_cases hm : m = []
    · rw [if_pos hm, if_pos hm, if_neg (hm ▸ hfits.1.symm)]
    · rw [if_neg hm, if_neg hm, OrderedMap.get?_put]
  · exact absurd h (by simp)

/-- A file fits into any folder and in no folder's place. -/
theorem fits_file (hl : l ≠ []) (hnames : ∀ name ∈ l, IsName name)
    (hdir : t.lookup? l.dropLast = some .folder) (hplace : t.lookup? l ≠ some .folder) :
    t.Fits l (.file content executable) := by
  refine ⟨hl, hnames, .inl rfl, hdir, .inr fun x hx heq => hplace ?_⟩
  rcases t.closed x hx with htop | hfolder
  · exact absurd (heq.symm.trans htop) hl
  · exact heq ▸ lookup?_of_entry hfolder

theorem exists_put? (h : t.Fits l e) : ∃ t', t.put? l e = some t' := by
  rw [put?, dif_pos h]
  exact ⟨_, rfl⟩

theorem pathFault?_of_isName (h : IsName name) : pathFault? name = none := by
  have hsize : ¬ pathLimit < name.length := by
    have hname := h.2.2.2.2.2
    have hlimits : nameLimit ≤ pathLimit := by decide
    omega
  simp [pathFault?, shapeFault?, h.1, h.2.2.2.2.1, hsize]

theorem resolveToWrite_of_isName (h : IsName name) :
    t.resolveToWrite cwd name = t.followToWrite linkLimit cwd [name] false := by
  rw [resolveToWrite, pathFault?_of_isName h, Path.parts_of_isName h, h.endsInSlash,
    origin, h.isAbsolute, if_neg (by decide)]

/-- A name that is not taken is where a file of that name is written. -/
theorem resolveToWrite_new (h : IsName name) (hcwd : t.lookup? cwd = some .folder)
    (hnew : t.lookup? (cwd ++ [name]) = none) :
    t.resolveToWrite cwd name = .ok (cwd ++ [name]) := by
  have hsize : ¬ nameLimit < name.length := Nat.not_lt.mpr h.2.2.2.2.2
  rw [resolveToWrite_of_isName h]
  unfold followToWrite
  simp [isFolderAt_iff.mpr hcwd, h.2.1, h.2.2.1, hsize, hnew]

theorem resolveToWrite_folder (h : IsName name) (hcwd : t.lookup? cwd = some .folder)
    (hfolder : t.lookup? (cwd ++ [name]) = some .folder) :
    t.resolveToWrite cwd name = .error .isFolder := by
  have hsize : ¬ nameLimit < name.length := Nat.not_lt.mpr h.2.2.2.2.2
  rw [resolveToWrite_of_isName h]
  unfold followToWrite
  simp [isFolderAt_iff.mpr hcwd, h.2.1, h.2.2.1, hsize, hfolder]

end FileTree

namespace RemovalScript

open FileTree

theorem write_folder {t : FileTree} {cwd : Location} {name : String} (h : IsName name)
    (hcwd : t.lookup? cwd = some .folder)
    (hfolder : t.lookup? (cwd ++ [encode name]) = some .folder) (contents : String) :
    write t cwd name contents = .error (.script name FileFault.isFolder.message) := by
  rw [write, writeText, resolveToWrite_folder h hcwd hfolder]

end RemovalScript

end UnusedAssets
