import UnusedAssets.Proofs.Candidate

/-!
# Folders that are too far away

The path of a project's folder may be as long as paths can be. Slashes alone spell such a path of the
top folder (`resolve_slashes`). The paths of the folders below it are then too long to be opened, so
that no file in them belongs to the project (`not_hasFile_farAway`).
-/

namespace UnusedAssets.Project

open Text FileTree
open UnusedAssets.Path (slash)

/-- The top of the tree, spelled with some slashes. -/
def slashes (n : Nat) : Bytes := List.replicate n slash

theorem length_slashes (n : Nat) : (slashes n).length = n := List.length_replicate

theorem parts_slashes (n : Nat) : Path.parts (slashes n) = [] := by
  induction n with
  | zero => decide
  | succ n ih =>
    have h := Path.parts_append_slash [] (slashes n)
    rwa [ih] at h

theorem not_mem_nul_slashes (n : Nat) : 0 ∉ slashes n := fun h =>
  absurd (List.eq_of_mem_replicate h) (by decide)

theorem endsInSlash_slashes (n : Nat) : Path.endsInSlash (slashes (n + 1)) = true :=
  Path.endsInSlash_iff.mpr ⟨slashes n, List.replicate_succ'⟩

theorem join_slashes {n : Nat} (hn : n ≠ 0) {name : Bytes} (h : IsName name) :
    Path.join (slashes n) name = slashes n ++ name := by
  obtain ⟨m, rfl⟩ := Nat.exists_eq_succ_of_ne_zero hn
  rw [Path.join, h.isAbsolute, if_neg (by decide), endsInSlash_slashes, Bool.or_true, if_pos rfl]

/-- As many slashes as a path may have lead to the top. -/
theorem resolve_slashes (t : FileTree) {n : Nat} (hpos : 0 < n) (hn : n ≤ pathLimit) :
    t.resolve [] (slashes n) = .ok [] := by
  obtain ⟨n, rfl⟩ : ∃ m, n = m + 1 := ⟨n - 1, by omega⟩
  have hsize := length_slashes (n + 1)
  have hne : slashes (n + 1) ≠ [] := by
    intro he
    rw [he] at hsize
    exact absurd hsize (by simp)
  refine resolve_eq_ok_iff.mpr ⟨?_, [], by simp, ?_⟩
  · have hlimit : ¬ pathLimit < n + 1 := by omega
    simp [pathFault?, shapeFault?, not_mem_nul_slashes, hne, hsize, hlimit]
  · rw [steps, parts_slashes, endsInSlash_slashes, origin, ite_self]
    exact .stay rfl (by simp [isFolderAt]) (.done [])

/-- A project whose folder has as long a path as any, with a style sheet and an entry file. -/
def farAway : Project where
  tree := .ofEntries
    [(["a"], .folder), (["a", "x.css"], .file [] false), (["public"], .folder),
      (["public", "index.php"], .file [] false)]
    (by decide)
  cwd := []
  root := slashes pathLimit

theorem resolve_farAway : farAway.tree.resolve farAway.cwd farAway.root = .ok [] :=
  resolve_slashes _ (by decide) (Nat.le_refl _)

theorem isFolder_farAway : farAway.tree.isFolder farAway.cwd farAway.root = true :=
  isFolder_iff.mpr ⟨[], resolve_farAway, rfl⟩

theorem pathLimit_lt_farAway {names : List Bytes} (hne : names ≠ [])
    (h : ∀ n ∈ names, IsName n) : pathLimit < (pathBelow farAway.root names).length := by
  have hsize : farAway.root.length = pathLimit := length_slashes pathLimit
  have hlonger := length_lt_pathBelow farAway.root hne h
  omega

theorem not_hasFile_farAway (path : String) : ¬ farAway.HasFile path := by
  intro h
  obtain ⟨top, names, name, htop, hopens, -, hentry⟩ := h
  rw [resolve_farAway, Except.ok.injEq] at htop
  subst htop
  cases hopens with
  | root =>
    have honly : ∀ e, farAway.tree.lookup? [name] = some e → e = .folder := by
      intro e he
      have hmem := (lookup?_eq_some_iff (by simp)).mp he
      simp only [farAway, toList_ofEntries, List.mem_cons, Prod.mk.injEq, List.cons.injEq] at hmem
      rcases hmem with ⟨-, rfl⟩ | hmem | ⟨-, rfl⟩ | hmem
      · rfl
      · exact absurd hmem.1.2 (by simp)
      · rfl
      · simp at hmem
    rcases hentry with ⟨content, executable, he⟩ | ⟨⟨target, he⟩, -⟩
    · exact absurd (honly _ he) (by simp)
    · exact absurd (honly _ he) (by simp)
  | inner _ folder fits =>
    rw [List.nil_append] at folder
    have hlong := pathLimit_lt_farAway (by simp) (isName_of_lookup? folder)
    omega

end UnusedAssets.Project
