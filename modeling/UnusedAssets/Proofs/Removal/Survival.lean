import UnusedAssets.Proofs.Removal.Deletion
import UnusedAssets.Proofs.Removal.Exactness

/-!
# What removal leaves of the used files

Files are compared by name, so a link in use does not keep what it leads to: that is deleted if it
is an unused candidate itself (`used_link_is_cut`). Nothing else can become of a file in use
(`isFile_after_removal`).
-/

namespace UnusedAssets.Project

open Text FileTree

variable {p : Project} {s : Settings} {a : Analysis} {events : List Event} {names : List Bytes}

theorem isFile_of_plain (h : p.analyze s = .ok (a, events))
    (hfile : names ∈ p.tree.filesBelow p.cwd p.root) (hused : Path.textOf names ∈ a.graph.used)
    (hbefore : p.tree.isFile p.cwd (pathBelow p.root names) = true)
    (hplain : ∀ top target, p.tree.resolve p.cwd p.root = .ok top →
      p.tree.lookup? (top ++ names) ≠ some (.link target)) :
    (p.without a.unused).tree.isFile p.cwd (pathBelow p.root names) = true := by
  refine isFile_without_iff.mpr ⟨hbefore, ?_⟩
  obtain ⟨hne, -, top, e, htop, he, -⟩ := mem_filesBelow_iff.mp hfile
  have hfolder := lookup?_of_append he hne
  obtain ⟨-, links, -, hroot⟩ := resolve_eq_ok_iff.mp htop
  have hwalk := hroot.append_names hne he fun target ht => hplain top target htop (by rw [he, ht])
  intro links' l hwalk' x hx
  obtain ⟨rfl, rfl⟩ := hwalk'.unique hwalk
  rcases List.mem_cons.mp hx with rfl | hx
  · rw [append_mem_locationsOf_iff htop]
    exact fun hgone => not_mem_unused_of_used h _ hused hgone.2
  · exact not_mem_locationsOf_of_root htop hfolder hroot x (List.mem_cons_of_mem _ hx)

/-- A file in use can be read after the removal just if it could before and its path neither leads
through a deleted link nor to a deleted file, and then it has the same text. If it is no link
itself, nothing on its path is deleted. -/
theorem isFile_after_removal (h : p.analyze s = .ok (a, events))
    (hfile : names ∈ p.tree.filesBelow p.cwd p.root) (hused : Path.textOf names ∈ a.graph.used) :
    ((p.without a.unused).tree.isFile p.cwd (pathBelow p.root names) = true ↔
      p.tree.isFile p.cwd (pathBelow p.root names) = true ∧
        ∀ links l, p.tree.Leads (origin p.cwd (pathBelow p.root names))
          (steps (pathBelow p.root names)) links l → ∀ x ∈ l :: links, x ∉ p.locationsOf a.unused) ∧
    ((p.without a.unused).tree.isFile p.cwd (pathBelow p.root names) = true →
      (p.without a.unused).readText (pathBelow p.root names) =
        p.readText (pathBelow p.root names)) ∧
    (p.tree.isFile p.cwd (pathBelow p.root names) = true →
      (∀ top target, p.tree.resolve p.cwd p.root = .ok top →
        p.tree.lookup? (top ++ names) ≠ some (.link target)) →
      (p.without a.unused).tree.isFile p.cwd (pathBelow p.root names) = true) := by
  refine ⟨isFile_without_iff, ?_, isFile_of_plain h hfile hused⟩
  intro hafter
  obtain ⟨content, executable, hentry⟩ := isFile_iff.mp hafter
  have hbefore := entryAt_of_without hentry
  rw [readText, readText, FileTree.readText, FileTree.readText, cwd_without, hentry, hbefore]

/-- A project with an unused file beside a public entry. -/
def withEntry : Project where
  tree := .ofEntries [(["old.css"], .file [] false), (["public"], .folder),
    (["public", "robots.txt"], .file [] false)] (by decide)
  cwd := []
  root := "/"

theorem mem_graph_of_entry (h : p.analyze {} = .ok (a, events))
    (hfile : p.HasFile "public/robots.txt")
    (hexists :
      p.tree.pathExists p.cwd (Path.join (p.pathTo Layout.publicDir) "robots.txt") = true) :
    "public/robots.txt" ∈ a.graph.candidates ∧ "public/robots.txt" ∈ a.graph.used := by
  constructor
  · exact (mem_graph_candidates h).mpr
      (mem_candidates_iff.mpr ⟨hfile, ⟨".txt", by decide, by decide⟩, by decide⟩)
  · rw [graph_of_analyze h]
    exact Survey.mem_used_run.mpr
      (.inl (Survey.mem_entryPaths_iff.mpr ⟨"robots.txt", by decide, hexists, by decide⟩))

theorem leads_withEntry :
    withEntry.tree.Leads (origin [] "/old.css") (steps "/old.css") [] [encode "old.css"] ∧
      withEntry.tree.Leads (origin [] "/public/robots.txt") (steps "/public/robots.txt") []
        [encode "public", encode "robots.txt"] := by
  have horigin : origin [] "/old.css" = [] ∧ origin [] "/public/robots.txt" = [] := by
    decide
  have hsteps : steps "/old.css" = [encode "old.css"] ∧
      steps "/public/robots.txt" = [encode "public", encode "robots.txt"] := by decide
  rw [horigin.1, horigin.2, hsteps.1, hsteps.2]
  exact ⟨leads_names (e := .file [] false) (by decide) (by simp),
    leads_names (e := .file [] false) (by decide) (by simp)⟩

theorem entryAt_withEntry :
    withEntry.tree.entryAt [] "/public/robots.txt" = .ok (.file [] false) :=
  entryAt_eq_ok_iff.mpr ⟨_,
    resolve_eq_ok_iff.mpr ⟨by decide, [], by simp, leads_withEntry.2⟩, by decide⟩

theorem mem_unused_withEntry (h : withEntry.analyze {} = .ok (a, events)) :
    "old.css" ∈ a.unused := by
  have hfile : withEntry.HasFile "old.css" :=
    ⟨[], [], "old.css", resolve_top _ _, .root, by decide, .inl ⟨[], false, by decide⟩⟩
  have hvisits : Survey.visits withEntry = [] :=
    Survey.visits_eq_nil_of_absent (resolve_top _ _) (by decide)
  exact mem_unused_of_no_visits h hvisits hfile ⟨".css", by decide, by decide⟩ (by decide) rfl
    (by decide)

theorem isFile_after_removal_entry : ∃ a events, withEntry.analyze {} = .ok (a, events) ∧
    "old.css" ∈ a.unused ∧ (withEntry.without a.unused).tree.isFile [] "/old.css" = false ∧
    "public/robots.txt" ∈ a.graph.candidates ∧ "public/robots.txt" ∈ a.graph.used ∧
      (withEntry.without a.unused).tree.isFile [] "/public/robots.txt" = true := by
  have hjoin : Path.join (withEntry.pathTo Layout.publicDir) "robots.txt" =
      encode "/public/robots.txt" := by decide
  have hpath : pathBelow withEntry.root [encode "public", encode "robots.txt"] =
      encode "/public/robots.txt" := by decide
  have htext : Path.textOf [encode "public", encode "robots.txt"] = "public/robots.txt" := by
    decide
  have hroot : withEntry.tree.resolve withEntry.cwd withEntry.root = .ok [] := resolve_top _ _
  have hopens : withEntry.Opens [] [encode "public"] := .of_entry (by decide) (by decide)
  have hold : [encode "old.css"] ∈ withEntry.tree.filesBelow [] withEntry.root :=
    mem_filesBelow_iff.mpr ⟨by simp, by decide, [], .file [] false, hroot, by decide, rfl⟩
  have hfile : [encode "public", encode "robots.txt"] ∈
      withEntry.tree.filesBelow [] withEntry.root :=
    mem_filesBelow_iff.mpr ⟨by simp, by decide, [], .file [] false, hroot, by decide, rfl⟩
  obtain ⟨a, events, ha⟩ := exists_analyze (p := withEntry) (s := {}) (isFolder_top _ _)
  have hunused := mem_unused_withEntry ha
  obtain ⟨hcandidate, hused⟩ := mem_graph_of_entry ha
    ⟨[], [encode "public"], "robots.txt", hroot, hopens, htext.symm, .inl ⟨[], false, by decide⟩⟩
    (by rw [hjoin]; exact pathExists_iff.mpr ⟨_, entryAt_withEntry⟩)
  refine ⟨a, events, ha, hunused, ?_, hcandidate, hused, ?_⟩
  · rw [← Bool.not_eq_true]
    intro hafter
    have hgone : [] ++ [encode "old.css"] ∈ withEntry.locationsOf a.unused :=
      (append_mem_locationsOf_iff hroot).mpr ⟨hold, hunused⟩
    exact (isFile_without_iff.mp hafter).2 _ _ leads_withEntry.1 _ List.mem_cons_self hgone
  · rw [← hpath]
    refine (isFile_after_removal ha hfile (htext.symm ▸ hused)).2.2 ?_ fun top target htop => ?_
    · rw [hpath]
      exact isFile_iff.mpr ⟨_, _, entryAt_withEntry⟩
    · obtain rfl := Except.ok.inj (hroot.symm.trans htop)
      have hentry : withEntry.tree.lookup? ([] ++ [encode "public", encode "robots.txt"]) =
          some (.file [] false) := by decide
      rw [hentry]
      simp

/-- A project with a public entry that is a link to a file elsewhere in the project. -/
def withLinkedEntry : Project where
  tree := .ofEntries [(["notes.txt"], .file [] false), (["public"], .folder),
    (["public", "robots.txt"], .link "../notes.txt")] (by decide)
  cwd := []
  root := "/"

theorem leads_linkedEntry : withLinkedEntry.tree.Leads (origin [] "/public/robots.txt")
    (steps "/public/robots.txt") [[encode "public", encode "robots.txt"]]
      [encode "notes.txt"] := by
  have horigin : origin [] "/public/robots.txt" = [] := by decide
  have hsteps : steps "/public/robots.txt" = [encode "public", encode "robots.txt"] := by
    decide
  have horigin' : origin [encode "public"] "../notes.txt" = [encode "public"] := by decide
  have htarget : steps "../notes.txt" = [encode "..", encode "notes.txt"] := by decide
  have hlink : withLinkedEntry.tree.lookup? ([encode "public"] ++ [encode "robots.txt"]) =
      some (.link "../notes.txt") := by decide
  rw [horigin, hsteps]
  refine .enter (e := .folder) (by decide) (by simp) (.jump hlink ?_)
  rw [List.nil_append, horigin', htarget]
  exact .up rfl (by decide) (.enter (e := .file [] false) (by decide) (by simp) (.done _))

theorem entryAt_linkedEntry :
    withLinkedEntry.tree.entryAt [] "/public/robots.txt" = .ok (.file [] false) :=
  entryAt_eq_ok_iff.mpr ⟨["notes.txt"],
    resolve_eq_ok_iff.mpr ⟨by decide, _, by decide, leads_linkedEntry⟩, by decide⟩

theorem mem_unused_notes (h : withLinkedEntry.analyze {} = .ok (a, events)) :
    "notes.txt" ∈ a.unused := by
  have hfile : withLinkedEntry.HasFile "notes.txt" :=
    ⟨[], [], "notes.txt", resolve_top _ _, .root, by decide, .inl ⟨[], false, by decide⟩⟩
  have hvisits : Survey.visits withLinkedEntry = [] :=
    Survey.visits_eq_nil_of_absent (resolve_top _ _) (by decide)
  exact mem_unused_of_no_visits h hvisits hfile ⟨".txt", by decide, by decide⟩ (by decide) rfl
    (by decide)

/-- A used link is cut off from its file by the removal. -/
theorem used_link_is_cut : ∃ a events, withLinkedEntry.analyze {} = .ok (a, events) ∧
    "public/robots.txt" ∈ a.graph.candidates ∧ "public/robots.txt" ∈ a.graph.used ∧
    withLinkedEntry.tree.isFile [] (withLinkedEntry.pathTo "public/robots.txt") = true ∧
    (withLinkedEntry.without a.unused).tree.isFile []
      (withLinkedEntry.pathTo "public/robots.txt") = false := by
  have hpath : withLinkedEntry.pathTo "public/robots.txt" = "/public/robots.txt" := by
    decide
  have hjoin : Path.join (withLinkedEntry.pathTo Layout.publicDir) "robots.txt" =
      encode "/public/robots.txt" := by decide
  have hroot : withLinkedEntry.tree.resolve withLinkedEntry.cwd withLinkedEntry.root = .ok [] :=
    resolve_top _ _
  have hopens : withLinkedEntry.Opens [] [encode "public"] :=
    .of_entry (by decide) (by decide)
  have hfile :
      withLinkedEntry.tree.isFile [] (withLinkedEntry.pathTo "public/robots.txt") = true := by
    rw [hpath]
    exact isFile_iff.mpr ⟨_, _, entryAt_linkedEntry⟩
  obtain ⟨a, events, ha⟩ := exists_analyze (p := withLinkedEntry) (s := {}) (isFolder_top _ _)
  obtain ⟨hcandidate, hused⟩ := mem_graph_of_entry ha
    ⟨[], [encode "public"], "robots.txt", hroot, hopens, by decide,
      .inr ⟨⟨"../notes.txt", by decide⟩, hfile⟩⟩
    (by rw [hjoin]; exact pathExists_iff.mpr ⟨_, entryAt_linkedEntry⟩)
  refine ⟨a, events, ha, hcandidate, hused, hfile, ?_⟩
  have hnotes : [encode "notes.txt"] ∈ withLinkedEntry.tree.filesBelow [] withLinkedEntry.root :=
    mem_filesBelow_iff.mpr ⟨by simp, by decide, [], .file [] false, hroot, by decide, rfl⟩
  have hcut : [] ++ [encode "notes.txt"] ∈ withLinkedEntry.locationsOf a.unused :=
    (append_mem_locationsOf_iff hroot).mpr ⟨hnotes, mem_unused_notes ha⟩
  rw [← Bool.not_eq_true]
  intro hafter
  obtain ⟨-, hkept⟩ := isFile_without_iff.mp hafter
  rw [hpath] at hkept
  exact hkept _ _ leads_linkedEntry _ List.mem_cons_self hcut

end UnusedAssets.Project
