import UnusedAssets.Proofs.CommandLine.AlikeRuns
import UnusedAssets.Proofs.Config
import UnusedAssets.Proofs.Survey.UnseenFile

/-!
# Configurations that are rejected

The file of a configuration is read for the configuration and otherwise makes no difference: it
marks no root, and no survey sees it. So where a configuration is rejected, a run comes out as
without its file (`rejected_config`).
-/

namespace UnusedAssets

open Text FileTree

variable {t : FileTree} {top here : Location} {name : Bytes} {content : Bytes}
  {executable : Bool}

/-- Without links, no survey of a project sees the file of its configuration. -/
theorem unseen_config (cwd : Location) (ht : t.LinkFree)
    (hfile : t.lookup? (top ++ [encode Config.fileName]) = some (.file content executable)) :
    Unseen ⟨t.removeAll [top ++ [encode Config.fileName]], cwd, Location.path top⟩ t
      (top ++ [encode Config.fileName]) := by
  have hadds := addsFile_of_removed hfile
  refine ⟨hadds, fun here name hname => ?_⟩
  obtain ⟨rfl, rfl⟩ := ht.of_nameLeadsTo hadds.not_folder hname
  refine ⟨by decide, fun hr => ?_⟩
  have hroutes : IsName Layout.routesDir := by decide
  have hnames : ∀ n ∈ here ++ [encode Layout.routesDir], IsName n :=
    List.forall_mem_append.mpr
      ⟨(List.forall_mem_append.mp (isName_of_lookup? hfile)).1, by simpa using hroutes⟩
  rw [Project.pathTo, Location.join_path hnames] at hr
  have hself := (hadds.sameFrame.symm.linkFree ht).eq_of_resolve_path hnames hr
  simp at hself

theorem marksNoRoot_config (ht : t.LinkFree)
    (hfile : t.lookup? (top ++ [encode Config.fileName]) = some (.file content executable)) :
    t.MarksNoRoot (top ++ [encode Config.fileName]) := by
  intro here name hmarker hname
  obtain ⟨rfl, hconfig⟩ := ht.of_nameLeadsTo (by simp [hfile]) hname
  obtain rfl : name = Config.fileName := encode_inj.mp hconfig
  exact absurd hmarker (by decide)

namespace CommandLine

variable {w : Surroundings} {o : Options} {f : Config.LoadFailure} {words : List String}

/-- Without the file of a rejected configuration a run finds the same. -/
theorem sameFindings_of_rejected (later : Timestamp) (hlinks : w.tree.LinkFree)
    (hfile : w.tree.lookup? (top ++ [encode Config.fileName]) = some (.file content executable))
    (hrejected : Config.load ⟨w.tree, w.cwd, Location.path top⟩ = .error f)
    (hroot : w.tree.projectRoot? w.cwd (o.path.getD ".") = some top)
    (hpath : w.tree.locate w.cwd (o.path.getD ".") ≠ .ok (top ++ [encode Config.fileName])) :
    SameFindings w
      { w with tree := w.tree.removeAll [top ++ [encode Config.fileName]], now := later } o
      ⟨w.tree, w.cwd, Location.path top⟩
      ⟨w.tree.removeAll [top ++ [encode Config.fileName]], w.cwd, Location.path top⟩ := by
  have hunseen := unseen_config w.cwd hlinks hfile
  have hframe := hunseen.adds.sameFrame
  obtain ⟨m, hm⟩ := exists_locate hroot
  have hroot' : (w.tree.removeAll [top ++ [encode Config.fileName]]).projectRoot? w.cwd
      (o.path.getD ".") = some top := by
    rw [← hroot]
    exact (hunseen.adds.projectRoot?_eq (marksNoRoot_config hlinks hfile)
      (.inr ⟨hm, fun he => hpath (he ▸ hm)⟩)).symm
  have hload : Config.load ⟨w.tree.removeAll [top ++ [encode Config.fileName]], w.cwd,
      Location.path top⟩ = .ok none := by
    refine Config.load_of_absent (hframe.folder_iff.mpr (lookup?_of_append hfile (by simp))) ?_
    rw [lookup?_removed hfile, if_pos rfl]
  exact {
    cwd := rfl
    reply := rfl
    frame := hframe.symm
    found := by rw [project?, hroot, Option.map_some]
    found' := by rw [project?, hroot', Option.map_some]
    root := rfl
    config := by rw [configOf_of_ok hload, configOf_of_error hrejected]; rfl
    results := fun s => (Project.analyze_of_unseen hunseen s).symm }

/-- Where the configuration of a project is rejected, a run comes out as without its file. -/
theorem rejected_config (w : Surroundings) (words : List String) (later : Timestamp)
    (hlinks : w.tree.LinkFree)
    (hfile : w.tree.lookup? (top ++ [encode Config.fileName]) = some (.file content executable))
    (hrejected : Config.load ⟨w.tree, w.cwd, Location.path top⟩ = .error f)
    (hpath : ∀ o, request words = .ok (.run o) →
      w.tree.projectRoot? w.cwd (o.path.getD ".") = some top ∧
        w.tree.locate w.cwd (o.path.getD ".") ≠ .ok (top ++ [encode Config.fileName])) :
    let without : Surroundings :=
      { w with tree := w.tree.remove (top ++ [encode Config.fileName]), now := later }
    Alike w.tree without.tree (execute w words) (execute without words) := by
  intro without
  refine alike_execute w without words fun o hwords => ?_
  obtain ⟨hroot, hapart⟩ := hpath o hwords
  exact alike_of_sameFindings
    (sameFindings_of_rejected later hlinks hfile hrejected hroot hapart)

/-- The surroundings of a run in a project whose configuration asks for a format that is not
known. -/
def besideOddFormat : Surroundings where
  tree := .ofEntries [(["deadasset.toml"], .file (encode "output.format = 'xml'") false)]
    (by decide)
  cwd := []
  reply := .missing
  logFilter := none
  now := ⟨0, 0⟩

theorem exists_read_oddFormat :
    ∃ fault, Config.read "output.format = 'xml'" = .error fault := by
  have hfails : (Config.read "output.format = 'xml'").isOk = false := by decide +kernel
  cases hread : Config.read "output.format = 'xml'" with
  | error fault => exact ⟨fault, rfl⟩
  | ok c =>
    rw [hread] at hfails
    exact absurd hfails (by simp [Except.isOk, Except.toBool])

theorem rejected_config_besideOddFormat : besideOddFormat.tree.LinkFree ∧
    (∃ fault, Config.load ⟨besideOddFormat.tree, [], "/"⟩ =
      .error (.invalid "/deadasset.toml" fault)) ∧
    Alike besideOddFormat.tree (besideOddFormat.tree.remove ["deadasset.toml"])
      (execute besideOddFormat ["--json"])
      (execute { besideOddFormat with
        tree := besideOddFormat.tree.remove ["deadasset.toml"], now := ⟨1, 0⟩ } ["--json"]) := by
  have hlinks : besideOddFormat.tree.LinkFree :=
    .of_entries (by simp [besideOddFormat, toList_ofEntries])
  have hfile : besideOddFormat.tree.lookup? ([] ++ [encode Config.fileName]) =
      some (.file (encode "output.format = 'xml'") false) := rfl
  obtain ⟨fault, hread⟩ := exists_read_oddFormat
  have hrejected : Config.load ⟨besideOddFormat.tree, [], "/"⟩ =
      .error (.invalid "/deadasset.toml" fault) := by
    have htop : Location.path [] = "/" := by decide
    rw [← htop, Config.load_of_file hfile (by decide), decode?_encode]
    simp only [hread]
    rfl
  refine ⟨hlinks, ⟨fault, hrejected⟩,
    rejected_config besideOddFormat ["--json"] ⟨1, 0⟩ hlinks hfile hrejected fun o hwords => ?_⟩
  have hjson : request ["--json"] = .ok (.run { json := true }) := by decide
  obtain rfl : ({ json := true } : Options) = o := by
    simpa using hjson.symm.trans hwords
  refine ⟨projectRoot?_top _, fun hlocate => ?_⟩
  exact absurd ((locate_top _).symm.trans hlocate) (by simp)

end CommandLine

end UnusedAssets
