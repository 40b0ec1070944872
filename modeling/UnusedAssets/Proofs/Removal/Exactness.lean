import UnusedAssets.Proofs.Analysis
import UnusedAssets.Proofs.Survey.Provenance
import UnusedAssets.Proofs.Survey.RouteLinks

/-!
# Which files are removed

The removal commands of an analysis name the unused candidates that no ignore pattern covers, each
once and in the order of bytes (`removalCommands_exact`). A file counts only if the folders on the
way to it can be opened by their paths, and these begin with the path of the project as it was
given; so files are passed over if that path is long (`passes_over_far_file`).
-/

namespace UnusedAssets

open Text FileTree

/-- An analysis of a folder succeeds, and its commands are for these files. -/
theorem removalCommands_exact (p : Project) (s : Settings) (reply : ListingReply)
    (h : p.tree.isFolder p.cwd p.root = true) :
    ∃ a events, p.analyze s = .ok (a, events) ∧ a.graph = ((p.survey s).run ∅).graph ∧
      ((a.removalCommands reply).map fun c => encode c.path).Pairwise (· < ·) ∧
      ∀ path, path ∈ (a.removalCommands reply).map (·.path) ↔
        p.HasFile path ∧
        (∃ suffix ∈ Candidate.suffixes, endsWith path suffix = true) ∧
        (∀ e ∈ Candidate.excludesWith s.excludes, startsWith path e = false) ∧
        path ∉ a.graph.used ∧
        ∀ pattern ∈ s.ignores, isIgnoredBy pattern path = false := by
  obtain ⟨a, events, ha⟩ := Project.exists_analyze (s := s) h
  refine ⟨a, events, ha, Project.graph_of_analyze ha, RemovalCommand.ascending_all _ _, ?_⟩
  intro path
  rw [Analysis.mem_removalCommands, Project.mem_unused ha, Project.mem_graph_candidates ha,
    Project.mem_candidates_iff, Settings.isIgnored_eq_false_iff, and_assoc, and_assoc]

namespace Project

/-- Where nothing is visited every candidate is unused, the public entries apart. -/
theorem mem_unused_of_no_visits {p : Project} {s : Settings} {a : Analysis} {events : List Event}
    {path : String} (h : p.analyze s = .ok (a, events)) (hvisits : Survey.visits p = [])
    (hfile : p.HasFile path) (hsuffix : ∃ suffix ∈ Candidate.suffixes, endsWith path suffix = true)
    (hexcludes : ∀ e ∈ Candidate.excludesWith s.excludes, startsWith path e = false)
    (hignores : s.isIgnored path = false)
    (hentry : ∀ name ∈ Survey.entryFiles, path ≠ Layout.publicDir ++ "/" ++ name) :
    path ∈ a.unused := by
  have hcandidate : path ∈ a.graph.candidates :=
    (mem_graph_candidates h).mpr (mem_candidates_iff.mpr ⟨hfile, hsuffix, hexcludes⟩)
  have hunused : path ∉ a.graph.used := by
    rw [graph_of_analyze h]
    exact Survey.not_mem_used_run hvisits hentry
  exact (mem_unused h).mpr ⟨hcandidate, hunused, hignores⟩

/-- A site with a view that its route shows and files to which nothing refers. -/
def linkedSite : Project := Survey.site (Survey.linkTo "login")

def siteSettings : Settings := { excludes := ["./docs"], ignores := ["notes.*", "build/*"] }

/-- Of the files of the site two are unused and a view is in use, a pattern leaves out one and an
exclusion another. -/
structure DividesSite (a : Analysis) : Prop where
  old : "old.css" ∈ a.unused
  home : "resources/views/home.blade.php" ∈ a.unused
  about : "resources/views/about.blade.php" ∈ a.graph.candidates ∧
    "resources/views/about.blade.php" ∈ a.graph.used
  notes : "notes.txt" ∈ a.ignored
  guide : linkedSite.HasFile "docs/guide.txt" ∧ "docs/guide.txt" ∉ a.graph.candidates

theorem isFolder_linkedSite : linkedSite.tree.isFolder linkedSite.cwd linkedSite.root = true :=
  isFolder_top _ _

theorem dividesSite {a : Analysis} {events : List Event}
    (h : linkedSite.analyze siteSettings = .ok (a, events)) : DividesSite a := by
  obtain ⟨hguide, hnotes, hold, habout, hhome⟩ := Survey.hasFile_site (Survey.linkTo "login")
  have hcandidate {path : String} (hfile : linkedSite.HasFile path)
      (hname : Candidate.hasName path = true)
      (hexcludes : Candidate.isExcluded (Candidate.excludesWith siteSettings.excludes) path = false) :
      path ∈ a.graph.candidates :=
    (mem_graph_candidates h).mpr (mem_candidates.mpr ⟨hasFile_iff.mp hfile, hname, hexcludes⟩)
  have hused {path : String}
      (hentry : ∀ name ∈ Survey.entryFiles, path ≠ Layout.publicDir ++ "/" ++ name) :
      path ∈ a.graph.used ↔ path = "routes/web.php" ∨ path = "resources/views/about.blade.php" := by
    rw [graph_of_analyze h]
    exact Survey.mem_used_site_iff hentry _
  refine ⟨?_, ?_, ⟨hcandidate habout (by decide) (by decide), (hused (by decide)).mpr (.inr rfl)⟩,
    ?_, hguide, fun hmem => ?_⟩
  · exact (mem_unused h).mpr ⟨hcandidate hold (by decide) (by decide),
      (hused (by decide)).not.mpr (by decide), by decide⟩
  · exact (mem_unused h).mpr ⟨hcandidate hhome (by decide) (by decide),
      (hused (by decide)).not.mpr (by decide), by decide⟩
  · exact (mem_ignored h).mpr ⟨hcandidate hnotes (by decide) (by decide),
      (hused (by decide)).not.mpr (by decide), by decide⟩
  · have hexcluded := (mem_candidates.mp ((mem_graph_candidates h).mp hmem)).2.2
    exact absurd hexcluded (by decide)

theorem removalCommands_site : linkedSite.tree.isFolder linkedSite.cwd linkedSite.root = true ∧
    ∃ a events, linkedSite.analyze siteSettings = .ok (a, events) ∧ DividesSite a ∧
      "old.css" ∈ (a.removalCommands .missing).map (·.path) ∧
      "resources/views/about.blade.php" ∉ (a.removalCommands .missing).map (·.path) := by
  obtain ⟨a, events, ha, -, -, hpaths⟩ :=
    removalCommands_exact linkedSite siteSettings .missing isFolder_linkedSite
  have hdivides := dividesSite ha
  refine ⟨isFolder_linkedSite, a, events, ha, hdivides, (hpaths _).mpr ⟨?_, ?_, ?_, ?_, ?_⟩,
    fun hmem => ((hpaths _).mp hmem).2.2.2.1 hdivides.about.2⟩
  · exact hasFile_of_mem_unused ha _ hdivides.old
  · exact ⟨".css", by decide, by decide⟩
  · decide
  · exact ((mem_unused ha).mp hdivides.old).2.1
  · decide

/-- An analysis passes over an unused file below a folder whose path is too long, and removes
nothing. -/
theorem passes_over_far_file : farAway.tree.isFolder farAway.cwd farAway.root = true ∧
    farAway.tree.lookup? ["a"] = some .folder ∧
    farAway.tree.lookup? ["a", "x.css"] = some (.file [] false) ∧
    (∃ suffix ∈ Candidate.suffixes, endsWith "a/x.css" suffix = true) ∧
    (∀ e ∈ Candidate.excludesWith [], startsWith "a/x.css" e = false) ∧
    ∃ a events, farAway.analyze {} = .ok (a, events) ∧ "a/x.css" ∉ a.graph.used ∧
      ∀ reply, a.removalCommands reply = [] := by
  obtain ⟨a, events, ha⟩ := exists_analyze (s := {}) isFolder_farAway
  refine ⟨isFolder_farAway, rfl, by decide, ⟨".css", by decide, by decide⟩, by decide, a, events,
    ha, ?_, ?_⟩
  · rw [graph_of_analyze ha]
    exact Survey.not_mem_used_farAway _ _
  · intro reply
    rw [List.eq_nil_iff_forall_not_mem]
    intro c hc
    have hpath : c.path ∈ a.unused := Analysis.mem_removalCommands.mp (List.mem_map_of_mem hc)
    exact not_hasFile_farAway c.path (hasFile_of_mem_unused ha c.path hpath)

end Project

end UnusedAssets
