import Mathlib.Algebra.GroupWithZero.Nat
import Mathlib.Data.List.Nodup
import UnusedAssets.Proofs.Text.ByteOrder
import UnusedAssets.Report.Basic

/-!
# Groups of a report

A path stands in the group of its extension and nowhere else, so ascending paths are divided into
ascending groups that make them up (`groups_byExtension`). A plain report is the text of a record of
its numbers and groups (`plain_eq_text`).
-/

namespace UnusedAssets

open Std Text

namespace Report

variable {paths : List String} {groups : List (String × List String)} {path : String}

theorem get?_addPath (groups : OrderedMap String (List String)) (path ext : String) :
    ((addPath groups path).get? ext).getD [] =
      (groups.get? ext).getD [] ++ [path].filter fun path : String => Path.extension path = ext := by
  rw [addPath, OrderedMap.get?_put]
  by_cases h : Path.extension path = ext
  · simp [h]
  · simp [h, Ne.symm h]

/-- The paths put into the group of an extension are those that have it, in their order. -/
theorem get?_foldl_addPath (paths : List String) (groups : OrderedMap String (List String))
    (ext : String) : ((paths.foldl addPath groups).get? ext).getD [] =
      (groups.get? ext).getD [] ++ paths.filter fun path : String => Path.extension path = ext := by
  induction paths generalizing groups with
  | nil => rw [List.foldl_nil, List.filter_nil, List.append_nil]
  | cons path paths ih =>
    rw [List.foldl_cons, ih, get?_addPath, List.append_assoc, ← List.filter_append,
      List.singleton_append]

/-- Paths in ascending order, none twice. -/
def Ascending (paths : List String) : Prop := paths.Pairwise fun a b => compare a b = .lt

theorem Ascending.nodup (h : Ascending paths) : paths.Nodup := OrderedSet.nodup_of_ascending h

theorem Ascending.filter (h : Ascending paths) (p : String → Bool) : Ascending (paths.filter p) :=
  List.Pairwise.filter p h

theorem Ascending.encode_lt (h : Ascending paths) : (paths.map encode).Pairwise (· < ·) :=
  List.pairwise_map.mpr (h.imp encode_lt_encode)

theorem getD_byExtension (h : Ascending paths) (ext : String) :
    ((byExtension paths).get? ext).getD [] =
      paths.filter fun path : String => Path.extension path = ext := by
  have hsorted : sorted paths = paths :=
    List.mergeSort_of_pairwise (h.imp fun hlt => by rw [hlt]; rfl)
  rw [byExtension, hsorted, get?_foldl_addPath]
  rfl

/-- Groups that make up some paths: each path in the group of its extension, extensions and the
paths of each in the order of their bytes. -/
structure Groups (paths : List String) (groups : List (String × List String)) : Prop where
  perm : (groups.flatMap (·.2)).Perm paths
  nodup : (groups.flatMap (·.2)).Nodup
  own : ∀ g ∈ groups, ∀ path ∈ g.2, Path.extension path = g.1
  ascending : ∀ g ∈ groups, (g.2.map encode).Pairwise (· < ·)
  extensions : (groups.map fun g => encode g.1).Pairwise (· < ·)

theorem Groups.sum_length (h : Groups paths groups) :
    (groups.map (·.2.length)).sum = paths.length := by
  rw [← h.perm.length_eq, List.length_flatMap]

theorem groups_byExtension (h : Ascending paths) : Groups paths (byExtension paths).toList := by
  have hgroup : ∀ g ∈ (byExtension paths).toList,
      g.2 = paths.filter fun path : String => Path.extension path = g.1 := by
    intro g hg
    rw [← getD_byExtension h, OrderedMap.get?_eq_some_iff.mpr hg, Option.getD_some]
  have hown : ∀ g ∈ (byExtension paths).toList, ∀ path ∈ g.2, Path.extension path = g.1 := by
    intro g hg path hpath
    rw [hgroup g hg] at hpath
    simpa using (List.mem_filter.mp hpath).2
  have hextensions : ((byExtension paths).toList.map fun g => encode g.1).Pairwise (· < ·) :=
    List.pairwise_map.mpr ((byExtension paths).ascending.imp encode_lt_encode)
  have hnodup : ((byExtension paths).toList.flatMap (·.2)).Nodup := by
    refine List.nodup_flatMap.mpr ⟨fun g hg => ?_, ?_⟩
    · rw [hgroup g hg]
      exact h.nodup.filter _
    -- A path in two groups would give both the same extension.
    · refine (byExtension paths).ascending.imp_of_mem ?_
      intro g g' hg hg' hlt path hpath hpath'
      exact OrderedSet.ne_of_compare_lt hlt
        ((hown g hg path hpath).symm.trans (hown g' hg' path hpath'))
  refine ⟨(List.perm_ext_iff_of_nodup hnodup h.nodup).mpr fun path => ?_, hnodup, hown, ?_,
    hextensions⟩
  · rw [List.mem_flatMap]
    constructor
    · intro hlisted
      obtain ⟨g, hg, hpath⟩ := hlisted
      rw [hgroup g hg] at hpath
      exact (List.mem_filter.mp hpath).1
    · intro hpath
      have hmem : path ∈ ((byExtension paths).get? (Path.extension path)).getD [] := by
        rw [getD_byExtension h]
        exact List.mem_filter.mpr ⟨hpath, by simp⟩
      obtain ⟨files, hfiles, hin⟩ : ∃ files,
          (byExtension paths).get? (Path.extension path) = some files ∧ path ∈ files := by
        cases hfiles : (byExtension paths).get? (Path.extension path) with
        | none => simp [hfiles] at hmem
        | some files => exact ⟨files, rfl, by simpa [hfiles] using hmem⟩
      exact ⟨_, OrderedMap.get?_eq_some_iff.mp hfiles, hin⟩
  · intro g hg
    rw [hgroup g hg]
    exact (h.filter _).encode_lt

/-- A group of a plain report: its extension, the number behind it and the paths below. -/
structure PlainGroup where
  extension : String
  count : Nat
  paths : List String

/-- A plain report: the number in its headline, and its groups. -/
structure Plain where
  total : Nat
  groups : List PlainGroup

def PlainGroup.text (g : PlainGroup) : String :=
  "\n" ++ (if g.extension = "" then "(no extension)" else g.extension) ++ " files (" ++
    toString g.count ++ "):\n" ++ String.join (g.paths.map fun path => "  " ++ path ++ "\n")

/-- The headline, and the rule below it if files are listed. -/
def headline (total : Nat) : String :=
  if total = 0 then "No unused files found.\n"
  else "Found " ++ toString total ++ " unused files:\n" ++ repeated "-" 80 ++ "\n"

def Plain.text (r : Plain) : String :=
  headline r.total ++ String.join (r.groups.map PlainGroup.text)

def plainOf (unused : List String) : Plain :=
  ⟨unused.length, (byExtension unused).toList.map fun g => ⟨g.1, g.2.length, g.2⟩⟩

theorem plain_eq_text (unused : List String) : plain unused = (plainOf unused).text := by
  cases unused with
  | nil =>
    have hgroups : (plainOf []).groups = [] := by
      rw [plainOf, byExtension, sorted, List.mergeSort_nil]
      rfl
    rw [Plain.text, hgroups]
    rfl
  | cons path unused =>
    have htexts : (plainOf (path :: unused)).groups.map PlainGroup.text =
        (byExtension (path :: unused)).toList.map groupText := by
      rw [plainOf, List.map_map]
      rfl
    rw [Plain.text, htexts]
    rfl

end Report

end UnusedAssets
