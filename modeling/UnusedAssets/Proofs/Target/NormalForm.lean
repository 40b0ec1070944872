import UnusedAssets.Proofs.Candidate
import UnusedAssets.Proofs.Rule.Shapes
import UnusedAssets.Proofs.Target.ClassNames
import UnusedAssets.Proofs.Text.Substitution

/-!
# Targets in normal form

A candidate has the path in normal form that leads to it by the names of the tree
(`isNormal_of_mem_candidates`), and a reference keeps a file only if it spells the path in the same
way. A class or a controller always does. In the name of a view or a component an empty piece makes an
empty part of the path, unless it is the last one, and the values of assets, inclusions and bundler
entries are taken as they stand (`isNormal_target_iff`).
-/

namespace UnusedAssets

open Text

namespace Path

def IsPlain (part : String) : Prop := part ≠ "" ∧ part ≠ "." ∧ part ≠ ".."

instance (part : String) : Decidable (IsPlain part) := by
  unfold IsPlain; infer_instance

/-- A path that is spelled by the names that lead to what it stands for, from some folder on. -/
structure IsNormal (path : String) : Prop where
  isAbsolute_eq : isAbsolute (encode path) = false
  isPlain : ∀ part ∈ split path '/', IsPlain part

variable {dir name tail : String} {names : List Bytes}

theorem isNormal_iff {path : String} : IsNormal path ↔ ∀ part ∈ split path '/', IsPlain part := by
  refine ⟨IsNormal.isPlain, fun h => ⟨?_, h⟩⟩
  rw [isAbsolute_encode, Bool.eq_false_iff, Ne, startsWith_iff]
  rintro ⟨rest, hrest⟩
  have hsplit : split path '/' = split "" '/' ++ split (String.ofList rest) '/' :=
    split_of_toList (by simp [hrest])
  have hempty : split "" '/' = [""] := rfl
  rw [hsplit, hempty] at h
  exact (h "" List.mem_cons_self).1 rfl

instance (path : String) : Decidable (IsNormal path) := decidable_of_iff' _ isNormal_iff

theorem isNormal_append_slash_iff (hdir : IsNormal dir) :
    IsNormal (dir ++ "/" ++ name) ↔ IsNormal name := by
  rw [isNormal_iff, isNormal_iff, split_append_slash, List.forall_mem_append,
    and_iff_right hdir.isPlain]

/-- A part that ends in more than two characters of a name is plain. -/
theorem isPlain_append (part : String) (h : 2 < tail.length) : IsPlain (part ++ tail) := by
  have hlong : 2 < (part ++ tail).length := by
    rw [String.length_append]
    omega
  refine ⟨?_, ?_, ?_⟩
  all_goals
    intro heq
    rw [heq] at hlong
    exact absurd hlong (by decide)

theorem isNormal_append_iff (htail : '/' ∉ tail.toList) (hlong : 2 < tail.length) :
    IsNormal (name ++ tail) ↔ ∀ part ∈ (split name '/').dropLast, IsPlain part := by
  obtain ⟨init, last, hname, happend⟩ := exists_split_append htail name
  rw [isNormal_iff, happend, hname, List.dropLast_concat, List.forall_mem_append,
    List.forall_mem_singleton, and_iff_left (isPlain_append last hlong)]

/-- The names of a tree are read as plain parts. -/
theorem isPlain_of_isName {name : Bytes} (h : IsName name) : IsPlain (decodeLenient name) :=
  ⟨h.text_ne_empty, fun hdot => h.2.1 (eq_encode_of_decodeLenient hdot (by decide)),
    fun hdots => h.2.2.1 (eq_encode_of_decodeLenient hdots (by decide))⟩

theorem isNormal_textOf (hne : names ≠ []) (h : ∀ n ∈ names, IsName n) :
    IsNormal (textOf names) := by
  rw [isNormal_iff, split_textOf hne h]
  exact List.forall_mem_map.mpr fun n hn => isPlain_of_isName (h n hn)

theorem isPlain_iff_of_not_mem {part : String} (h : '.' ∉ part.toList) : IsPlain part ↔ part ≠ "" := by
  refine ⟨fun hplain => hplain.1, fun hne => ⟨hne, ?_, ?_⟩⟩
  · rintro rfl
    exact h (by decide)
  · rintro rfl
    exact h (by decide)

end Path

open UnusedAssets.Path Layout

theorem Project.isNormal_of_mem_candidates {p : Project} {excludes : List String} {path : String}
    (h : path ∈ p.candidates excludes) : IsNormal path := by
  obtain ⟨⟨names, hmem, rfl⟩, -⟩ := Project.mem_candidates.mp h
  exact isNormal_textOf (FileTree.mem_filesBelow_iff.mp hmem).1
    (FileTree.isName_of_mem_filesBelow hmem)

namespace Layout

variable {dir name tail className path : String} {names : List String}

/-- The file of some segments is in normal form if none of them holds a dot or a slash. -/
theorem isNormal_of_segments (hdir : IsNormal dir) (h : ∀ n ∈ names, n ≠ "" ∧
    '.' ∉ n.toList ∧ '/' ∉ n.toList) :
    IsNormal (dir ++ "/" ++ joinWith "/" names ++ sourceSuffix) := by
  rw [String.append_assoc, isNormal_append_slash_iff hdir,
    isNormal_append_iff (by decide) (by decide)]
  cases names with
  | nil => simp [joinWith, split, fields]
  | cons n names =>
    rw [split_joinWith (by simp) fun n hn => (h n hn).2.2]
    intro part hpart
    obtain ⟨hne, hdot, -⟩ := h part (List.mem_of_mem_dropLast hpart)
    exact (isPlain_iff_of_not_mem hdot).mpr hne

theorem plain_of_mem_segments (h : ∀ c ∈ className.toList, c.isAlphanum ∨ c = '\\') {n : String}
    (hn : n ∈ segments className) : n ≠ "" ∧ '.' ∉ n.toList ∧ '/' ∉ n.toList := by
  have hchars : ∀ c ∈ n.toList, c.isAlphanum ∨ c = '\\' :=
    fun c hc => h c (mem_of_mem_split (List.mem_filter.mp hn).1 hc)
  refine ⟨ne_empty_of_mem_segments hn, fun hdot => ?_, fun hslash => ?_⟩
  · exact absurd (hchars '.' hdot) (by decide)
  · exact absurd (hchars '/' hslash) (by decide)

theorem isNormal_of_classPath? (h : ∀ c ∈ className.toList, c.isAlphanum ∨ c = '\\')
    (hpath : classPath? className = some path) : IsNormal path := by
  rw [classPath?_eq_classFile?, classFile?] at hpath
  split at hpath
  · obtain rfl := Option.some.inj hpath
    exact isNormal_of_segments (by decide) fun n hn =>
      plain_of_mem_segments h (List.mem_of_mem_tail hn)
  · exact absurd hpath (by simp)

theorem isNormal_controllerPath (h : ∀ c ∈ className.toList, c.isAlphanum ∨ c = '\\') :
    IsNormal (controllerPath className) := by
  obtain ⟨names, hsuffix, hpath⟩ := exists_controllerFile className
  rw [hpath]
  exact isNormal_of_segments (by decide) fun n hn => plain_of_mem_segments h (hsuffix.mem hn)

/-- The pieces of a dotted name; a slash in it counts as a dot. -/
def pieces (name : String) : List String := split (substitute name '.' "/") '/'

theorem isNormal_dottedPath_iff (hdir : IsNormal dir) :
    IsNormal (dottedPath dir name) ↔ ∀ piece ∈ (pieces name).dropLast, piece ≠ "" := by
  rw [dottedPath, String.append_assoc, isNormal_append_slash_iff hdir,
    isNormal_append_iff (by decide) (by decide)]
  refine forall₂_congr fun piece hpiece => isPlain_iff_of_not_mem fun hdot => ?_
  have hslash : '.' ∉ "/".toList := by decide
  exact not_mem_substitute hslash (mem_of_mem_split (List.mem_of_mem_dropLast hpiece) hdot)

theorem isNormal_assetPath_iff {value : String} :
    IsNormal (assetPath value) ↔ IsNormal (dropLeading value '/') :=
  isNormal_append_slash_iff (by decide)

end Layout

/-- Whether a reference spells the path of its file by the names that lead to it: of the pieces of a
dotted name only the last may be empty, and a path in quotes has to be in normal form itself, a leading
slash of an asset apart. -/
def Reference.IsWellSpelled : Reference → Prop
  | .classImport _ | .controller _ _ | .routePath _ => True
  | .view name | .component name => ∀ piece ∈ (pieces name).dropLast, piece ≠ ""
  | .asset value => IsNormal (dropLeading value '/')
  | .inclusion path | .bundle path => IsNormal path

/-- The target of a reference in a file is in normal form exactly if the reference is well spelled, and
no other target is a candidate of any project. -/
theorem isNormal_target_iff {ref : Reference} {kind : SourceKind} {content path : String}
    (hmem : ref ∈ extract kind content) (htarget : ref.target = .file path) :
    (IsNormal path ↔ ref.IsWellSpelled) ∧
      ∀ (p : Project) (excludes : List String), path ∈ p.candidates excludes → ref.IsWellSpelled := by
  suffices h : IsNormal path ↔ ref.IsWellSpelled from
    ⟨h, fun p excludes hpath => h.mp (Project.isNormal_of_mem_candidates hpath)⟩
  have hshape := (standsIn_of_mem_extract hmem).shape
  cases ref with
  | classImport name =>
    have hpath : classPath? name = some path := by
      rw [Reference.target] at htarget
      split at htarget
      · next found hfound => rw [hfound, Target.file.inj htarget]
      · exact absurd htarget (by simp)
    exact iff_of_true (isNormal_of_classPath? hshape.2 hpath) trivial
  | controller route className =>
    obtain rfl := Target.file.inj htarget
    exact iff_of_true (isNormal_controllerPath hshape.2.2.1) trivial
  | view name =>
    obtain rfl := Target.file.inj htarget
    exact isNormal_dottedPath_iff (by decide)
  | component name =>
    obtain rfl := Target.file.inj htarget
    exact isNormal_dottedPath_iff (by decide)
  | asset value =>
    obtain rfl := Target.file.inj htarget
    exact isNormal_assetPath_iff
  | inclusion name =>
    obtain rfl := Target.file.inj htarget
    exact Iff.rfl
  | bundle name =>
    obtain rfl := Target.file.inj htarget
    exact Iff.rfl
  | routePath name => exact absurd htarget (by simp [Reference.target])

theorem isNormal_target_of_doubledDot :
    .view "mail..head" ∈ extract .template "@include('mail..head')" ∧
      (Reference.view "mail..head").target = .file "resources/views/mail//head.blade.php" ∧
      ¬ IsNormal "resources/views/mail//head.blade.php" ∧
      ∀ (p : Project) (excludes : List String),
        "resources/views/mail//head.blade.php" ∉ p.candidates excludes := by
  have hmem : .view "mail..head" ∈ extract .template "@include('mail..head')" := by decide +kernel
  have htarget : (Reference.view "mail..head").target =
      .file "resources/views/mail//head.blade.php" := by rfl
  have hspelled : ¬ (Reference.view "mail..head").IsWellSpelled :=
    fun h => h "" (by decide) rfl
  obtain ⟨hnormal, hcandidate⟩ := isNormal_target_iff hmem htarget
  exact ⟨hmem, htarget, fun h => hspelled (hnormal.mp h),
    fun p excludes h => hspelled (hcandidate p excludes h)⟩

/-- An inclusion names its file as it stands in quotes. -/
theorem not_isNormal_of_inclusion : ¬ ∀ (kind : SourceKind) (content : String) (ref : Reference)
    (path : String), ref ∈ extract kind content → ref.target = .file path → IsNormal path := by
  intro h
  have hmem : .inclusion "./routes/web.php" ∈ extract .handler "include './routes/web.php';" := by
    decide +kernel
  exact absurd (h _ _ _ _ hmem rfl) (by decide)

end UnusedAssets
