import UnusedAssets.Proofs.Text.Substitution
import UnusedAssets.Target

/-!
# View names and view files

A dotted name becomes the file of a view by writing its dots as slashes, and a file gets its dotted
name back by writing its slashes as dots. Reading a name back makes a name with dots only of it
(`viewName?_viewPath`), and a file is found again exactly if its path has no dot but those of its
ending (`viewPath_eq_viewFile_iff`). Components are views in a folder of their own.
-/

namespace UnusedAssets.Layout

open Text

variable {a b inner name path : String}

/-- The view with this path below the views' directory, its ending left out. -/
def viewFile (inner : String) : String := viewsDir ++ "/" ++ inner ++ viewSuffix

theorem viewPath_eq (name : String) : viewPath name = viewFile (substitute name '.' "/") := rfl

theorem viewFile_inj : viewFile a = viewFile b ↔ a = b := by
  rw [viewFile, viewFile, String.append_left_inj, String.append_right_inj]

/-- A view is known by its path with dots for slashes. -/
theorem viewName?_eq_some_iff :
    viewName? path = some name ↔ ∃ inner, path = viewFile inner ∧ name = substitute inner '/' "." := by
  constructor
  · intro h
    unfold viewName? at h
    split at h
    · exact absurd h (by simp)
    · next below hbelow =>
      split at h
      · exact absurd h (by simp)
      · next inner hinner =>
        have hpath : path = viewsDir ++ "/" ++ below := dropLead?_eq_some_iff.mp hbelow
        have hending : below = inner ++ viewSuffix := dropTail?_eq_some_iff.mp hinner
        refine ⟨inner, ?_, (Option.some.inj h).symm⟩
        rw [hpath, hending, viewFile, ← String.append_assoc]
  · rintro ⟨inner, rfl, rfl⟩
    have hbelow : dropLead? (viewFile inner) (viewsDir ++ "/") = some (inner ++ viewSuffix) :=
      dropLead?_eq_some_iff.mpr String.append_assoc
    have hinner : dropTail? (inner ++ viewSuffix) viewSuffix = some inner :=
      dropTail?_eq_some_iff.mpr rfl
    rw [viewName?, hbelow]
    simp only [hinner]

theorem viewName?_viewPath (name : String) :
    viewName? (viewPath name) = some (substitute name '/' ".") := by
  have hback : substitute (substitute name '.' "/") '/' "." = substitute name '/' "." :=
    substitute_substitute rfl rfl name
  exact viewName?_eq_some_iff.mpr ⟨_, viewPath_eq name, hback.symm⟩

/-- The name of a view leads back to it exactly if no dot stands in its path before the ending. -/
theorem viewPath_eq_viewFile_iff :
    viewPath (substitute inner '/' ".") = viewFile inner ↔ '.' ∉ inner.toList := by
  have hback : substitute (substitute inner '/' ".") '.' "/" = substitute inner '.' "/" :=
    substitute_substitute rfl rfl inner
  rw [viewPath_eq, hback, viewFile_inj]
  exact substitute_eq_self_iff (by decide)

theorem viewPath_eq_iff : viewPath a = viewPath b ↔ substitute a '.' "/" = substitute b '.' "/" := by
  rw [viewPath_eq, viewPath_eq, viewFile_inj]

theorem componentPath_eq_viewPath (name : String) :
    componentPath name = viewPath ("components." ++ name) := by
  have hfolder : substitute "components." '.' "/" = "components/" := by decide
  have hdir : componentsDir = viewsDir ++ "/" ++ "components" := by decide
  rw [viewPath_eq, substitute_append, hfolder, componentPath, dottedPath, hdir, viewFile]
  simp only [String.append_assoc]
  rfl

/-- How dotted names and the files of views correspond: what is read back of a name, which files are
found again by their names, which names have the same file, and where components lie. -/
theorem viewPath_correspondence :
    (∀ name, viewName? (viewPath name) = some (substitute name '/' ".")) ∧
      (∀ path name, viewName? path = some name →
        ∃ inner, path = viewsDir ++ "/" ++ inner ++ viewSuffix ∧
          (viewPath name = path ↔ '.' ∉ inner.toList)) ∧
      (∀ a b, viewPath a = viewPath b ↔ substitute a '.' "/" = substitute b '.' "/") ∧
      ∀ name, componentPath name = viewPath ("components." ++ name) := by
  refine ⟨viewName?_viewPath, fun path name h => ?_, fun a b => viewPath_eq_iff,
    componentPath_eq_viewPath⟩
  obtain ⟨inner, rfl, rfl⟩ := viewName?_eq_some_iff.mp h
  exact ⟨inner, rfl, viewPath_eq_viewFile_iff⟩

/-- A dot in the path of a view comes back as a slash. -/
theorem viewPath_correspondence_mail :
    viewName? "resources/views/mail.v2/body.blade.php" = some "mail.v2.body" ∧
      viewPath "mail.v2.body" ≠ "resources/views/mail.v2/body.blade.php" := by
  have hname : viewName? "resources/views/mail.v2/body.blade.php" = some "mail.v2.body" := by
    decide
  obtain ⟨-, hpaths, -⟩ := viewPath_correspondence
  obtain ⟨inner, hinner, hback⟩ := hpaths _ _ hname
  have hfile : viewFile inner = viewFile "mail.v2/body" := hinner.symm.trans (by decide)
  rw [viewFile_inj.mp hfile] at hback
  exact ⟨hname, fun h => hback.mp h (by decide)⟩

end UnusedAssets.Layout
