import UnusedAssets.Config
import UnusedAssets.Proofs.FileTree.ProjectRoot

/-!
# Where configurations are read

The configuration of a project is in the file of its name in the project's folder
(`Config.load_of_file`) and nowhere else (`Config.load_of_absent`). A file that the name does not
lead to makes no difference to it (`Config.load_of_added`).
-/

namespace UnusedAssets.Config

open Text FileTree

variable {t t' : FileTree} {cwd top l : Location} {root : Bytes} {content : Bytes}
  {executable : Bool}

theorem isName_fileName : IsName fileName := by decide

theorem load_of_file (hfile : t.lookup? (top ++ [encode fileName]) = some (.file content executable))
    (hfault : pathFault? (Location.path (top ++ [encode fileName])) = none) :
    load ⟨t, cwd, Location.path top⟩ = match decode? content with
      | none =>
        .error (.unreadable (decodeLenient (Location.path (top ++ [encode fileName]))) .notText)
      | some text =>
        match read text with
        | .error fault =>
          .error (.invalid (decodeLenient (Location.path (top ++ [encode fileName]))) fault)
        | .ok c => .ok (some c) := by
  have hpath : Path.join (Location.path top) (encode fileName) =
      Location.path (top ++ [encode fileName]) :=
    Location.join_path (isName_of_lookup? hfile)
  have hentry : t.entryAt cwd (Location.path (top ++ [encode fileName])) =
      .ok (.file content executable) := entryAt_path hfile (by simp) hfault
  have hexists : t.pathExists cwd (Location.path (top ++ [encode fileName])) = true :=
    pathExists_iff.mpr ⟨_, hentry⟩
  simp only [load, Project.pathTo, hpath, hexists, ↓reduceIte, Project.readText,
    FileTree.readText, hentry]
  cases decode? content <;> rfl

theorem load_of_absent (htop : t.lookup? top = some .folder)
    (habsent : t.lookup? (top ++ [encode fileName]) = none) :
    load ⟨t, cwd, Location.path top⟩ = .ok none := by
  have hnames : ∀ n ∈ top ++ [encode fileName], IsName n :=
    List.forall_mem_append.mpr ⟨isName_of_lookup? htop, by simpa using isName_fileName⟩
  have hnone : t.pathExists cwd (Path.join (Location.path top) (encode fileName)) = false := by
    rw [Location.join_path hnames]
    exact pathExists_path_of_absent isName_fileName htop habsent
  simp only [load, Project.pathTo, hnone, Bool.false_eq_true, ↓reduceIte]

theorem load_of_added (h : t.AddsFile t' l)
    (hhidden : ∀ here, ¬ t'.NameLeadsTo here (encode fileName) l) :
    load ⟨t', cwd, root⟩ = load ⟨t, cwd, root⟩ := by
  have hexists : t'.pathExists cwd (Path.join root (encode fileName)) =
      t.pathExists cwd (Path.join root (encode fileName)) := h.pathExists_eq isName_fileName hhidden
  cases hthere : t.pathExists cwd (Path.join root (encode fileName)) with
  | false =>
    rw [hthere] at hexists
    simp only [load, Project.pathTo, hexists, hthere, Bool.false_eq_true, ↓reduceIte]
  | true =>
    rw [hthere] at hexists
    obtain ⟨e, he⟩ := pathExists_iff.mp hthere
    have he' : t'.entryAt cwd (Path.join root (encode fileName)) = .ok e :=
      (h.entryAt_iff isName_fileName hhidden).mpr he
    simp only [load, Project.pathTo, hexists, hthere, ↓reduceIte, Project.readText,
      FileTree.readText, he, he']

end UnusedAssets.Config
