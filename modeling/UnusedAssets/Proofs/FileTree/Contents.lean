import UnusedAssets.Proofs.FileTree.Growth

/-!
# File trees with other contents

A change of what the files hold leaves every entry where it is (`lookup?_mapContents`), so that the
tree before and the tree after show the same paths (`samePaths_mapContents`).
-/

namespace UnusedAssets

open Text

/-- The entry with its content changed, if it is a file. -/
def Entry.mapContent (f : Bytes → Bytes) : Entry → Entry
  | .file content executable => .file (f content) executable
  | .link target => .link target
  | .folder => .folder

theorem Entry.isFile_mapContent (f : Bytes → Bytes) (e : Entry) :
    (e.mapContent f).isFile = e.isFile := by cases e <;> rfl

namespace FileTree

def mapContents (t : FileTree) (f : Bytes → Bytes) : FileTree where
  entries := ⟨t.entries.toList.map fun e => (e.1, e.2.mapContent f),
    List.pairwise_map.mpr t.entries.ascending⟩
  below_top := List.forall_mem_map.mpr t.below_top
  named := List.forall_mem_map.mpr t.named
  reachable := List.forall_mem_map.mpr fun e he =>
    (t.reachable e he).imp_left (e.2.isFile_mapContent f).trans
  closed := List.forall_mem_map.mpr fun e he =>
    (t.closed e he).imp_right fun hfolder => List.mem_map.mpr ⟨_, hfolder, rfl⟩

variable {t : FileTree} {f : Bytes → Bytes} {R : Location → Bytes → Bytes → Prop}

theorem lookup?_mapContents (t : FileTree) (f : Bytes → Bytes) (l : Location) :
    (t.mapContents f).lookup? l = (t.lookup? l).map (Entry.mapContent f) := by
  by_cases hl : l = []
  · rw [hl]
    rfl
  · refine Option.ext fun e => ?_
    rw [lookup?_eq_some_iff hl, Option.map_eq_some_iff, mapContents, List.mem_map]
    simp only [lookup?_eq_some_iff hl, Prod.exists, Prod.mk.injEq]
    constructor
    · rintro ⟨l, e, he, rfl, rfl⟩
      exact ⟨e, he, rfl⟩
    · rintro ⟨e, he, rfl⟩
      exact ⟨l, e, he, rfl, rfl⟩

theorem growsTo_mapContents (h : ∀ l content executable,
    t.lookup? l = some (.file content executable) → R l content (f content)) :
    t.GrowsTo (t.mapContents f) R := by
  intro l e hl
  refine ⟨e.mapContent f, by rw [lookup?_mapContents, hl, Option.map_some], ?_⟩
  cases e with
  | file content executable => exact h l content executable hl
  | link target => rfl
  | folder => trivial

theorem mapContents_growsTo (t : FileTree) (f : Bytes → Bytes) :
    (t.mapContents f).GrowsTo t fun _ _ _ => True := by
  intro l e' hl
  rw [lookup?_mapContents, Option.map_eq_some_iff] at hl
  obtain ⟨e, he, rfl⟩ := hl
  exact ⟨e, he, by cases e <;> trivial⟩

theorem samePaths_mapContents (t : FileTree) (f : Bytes → Bytes) :
    t.SamePaths (t.mapContents f) :=
  ⟨growsTo_mapContents fun _ _ _ _ => trivial, mapContents_growsTo t f⟩

end FileTree

end UnusedAssets
