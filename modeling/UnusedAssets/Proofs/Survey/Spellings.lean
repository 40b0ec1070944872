import UnusedAssets.Proofs.Candidate
import UnusedAssets.Proofs.FileTree.Spellings
import UnusedAssets.Proofs.Survey.Phases

/-!
# Surveys under another path

A survey names what it finds by the way from the project's folder, and reads it by the path of that
folder with these names behind it. Under another path of the same folder it lists, visits and marks
the same (`SpelledAlike.run_eq`), as long as none of the paths it uses goes beyond a limit with one
of the two and stays within it with the other.
-/

namespace UnusedAssets

open Text FileTree

def Project.spelled (p : Project) (root : Bytes) : Project := { p with root }

@[simp] theorem Project.tree_spelled (p : Project) (root : Bytes) :
    (p.spelled root).tree = p.tree := rfl

@[simp] theorem Project.cwd_spelled (p : Project) (root : Bytes) :
    (p.spelled root).cwd = p.cwd := rfl

@[simp] theorem Project.root_spelled (p : Project) (root : Bytes) :
    (p.spelled root).root = root := rfl

namespace Path

/-- The last of some names behind a path is what is called by both. -/
theorem stem_pathBelow (dir dir' : Bytes) {names : List Bytes} (hne : names ≠ [])
    (h : ∀ n ∈ names, IsName n) : stem (pathBelow dir names) = stem (pathBelow dir' names) := by
  rw [stem, stem, fileName?, fileName?, components_pathBelow dir h, components_pathBelow dir' h,
    List.getLast?_append_of_ne_nil _ hne, List.getLast?_append_of_ne_nil _ hne]

end Path

namespace Survey

/-- The names that lead to the folders from which a survey lists or looks up files. -/
def IsStart (lead : List Bytes) : Prop :=
  lead = [] ∨ lead = [encode "public"] ∨ ∃ kind, lead = folderNames kind

/-- A survey comes across what stands below one of the folders from which it starts. -/
def ComesAcross (t : FileTree) (top : Location) (names : List Bytes) : Prop :=
  ∃ lead more links m e, IsStart lead ∧ names = lead ++ more ∧ t.Leads top lead links m ∧
    t.lookup? (m ++ more) = some e

/-- Two paths of one folder. Continued to anything that a survey comes across, both stay within the
limits or neither does. -/
structure SpelledAlike (p : Project) (root : Bytes) (top : Location) : Prop where
  resolve : p.tree.resolve p.cwd p.root = .ok top
  resolve' : p.tree.resolve p.cwd root = .ok top
  limits : ∀ names, ComesAcross p.tree top names →
    (p.tree.IsWithinLimits p.cwd (pathBelow p.root names) ↔
      p.tree.IsWithinLimits p.cwd (pathBelow root names))

variable {p : Project} {root : Bytes} {top : Location} {kind : SourceKind}
  {lead names : List Bytes} {b b' : Progress} {v v' : Visit}

theorem isName_of_isStart (h : IsStart lead) : ∀ n ∈ lead, IsName n := by
  rcases h with rfl | rfl | ⟨kind, rfl⟩
  · exact fun n hn => absurd hn List.not_mem_nil
  · decide
  · exact isName_of_folderNames

namespace SpelledAlike

theorem symm (h : SpelledAlike p root top) : SpelledAlike (p.spelled root) p.root top where
  resolve := h.resolve'
  resolve' := h.resolve
  limits names hnames := (h.limits names hnames).symm

theorem resolve_iff (h : SpelledAlike p root top) (hnames : ∀ n ∈ names, IsName n)
    (hcomes : ComesAcross p.tree top names) (l : Location) :
    p.tree.resolve p.cwd (pathBelow p.root names) = .ok l ↔
      p.tree.resolve p.cwd (pathBelow root names) = .ok l := by
  by_cases hne : names = []
  · subst hne
    rw [pathBelow, pathBelow, List.foldl_nil, List.foldl_nil, h.resolve, h.resolve']
  · rw [resolve_pathBelow_iff_isWithinLimits h.resolve hne hnames,
      resolve_pathBelow_iff_isWithinLimits h.resolve' hne hnames, h.limits names hcomes]

/-- Where a start resolves, its names lead there from the folder. -/
theorem leads_of_resolve (h : SpelledAlike p root top) (hlead : IsStart lead) {m : Location}
    (hm : p.tree.resolve p.cwd (pathBelow p.root lead) = .ok m) :
    ∃ links, p.tree.Leads top lead links m := by
  by_cases hne : lead = []
  · subst hne
    rw [pathBelow, List.foldl_nil, h.resolve, Except.ok.injEq] at hm
    exact ⟨[], hm ▸ .done top⟩
  · exact ((resolve_pathBelow_iff_isWithinLimits h.resolve hne (isName_of_isStart hlead)).mp hm).2

/-- Both paths, continued to a start, lead alike. -/
theorem leadAlike (h : SpelledAlike p root top) (hlead : IsStart lead) :
    p.tree.LeadAlike p.cwd (pathBelow p.root lead) (pathBelow root lead) where
  folder m hm := by
    have hcomes {links : List Location} (hleads : p.tree.Leads top lead links m) :
        ComesAcross p.tree top lead :=
      ⟨lead, [], links, m, .folder, hlead, by simp, hleads, by simpa using hm⟩
    have hnames := isName_of_isStart hlead
    constructor
    · intro hresolve
      obtain ⟨links, hleads⟩ := h.leads_of_resolve hlead hresolve
      exact (h.resolve_iff hnames (hcomes hleads) m).mp hresolve
    · intro hresolve
      obtain ⟨links, hleads⟩ := h.symm.leads_of_resolve hlead hresolve
      exact (h.resolve_iff hnames (hcomes hleads) m).mpr hresolve
  below m names e hm _ he l := by
    obtain ⟨links, hleads⟩ := h.leads_of_resolve hlead hm
    rw [← pathBelow_append, ← pathBelow_append]
    refine h.resolve_iff ?_ ⟨lead, names, links, m, e, hlead, rfl, hleads, he⟩ l
    intro n hn
    rcases List.mem_append.mp hn with hn | hn
    · exact isName_of_isStart hlead n hn
    · exact isName_of_lookup? he n (List.mem_append_right _ hn)

theorem visitedNames_eq (h : SpelledAlike p root top) (kind : SourceKind) :
    visitedNames (p.spelled root) kind = visitedNames p kind :=
  congrArg (List.filter _) (h.leadAlike (.inr (.inr ⟨kind, rfl⟩))).filesBelow_eq.symm

theorem candidates_eq (h : SpelledAlike p root top) (excludes : List String) :
    (p.spelled root).candidates excludes = p.candidates excludes := by
  have hfiles : p.tree.filesBelow p.cwd p.root = p.tree.filesBelow p.cwd root :=
    (h.leadAlike (.inl rfl)).filesBelow_eq
  rw [Project.candidates_eq, Project.candidates_eq, Project.namedCandidates,
    Project.namedCandidates, hfiles]
  rfl

theorem readSource_iff (h : SpelledAlike p root top) (hnames : names ∈ visitedNames p kind)
    (text : String) :
    (p.spelled root).readSource (visitTo (p.spelled root) kind names).path = .ok text ↔
      p.readSource (visitTo p kind names).path = .ok text := by
  obtain ⟨hne, -, m, e, hm, he, -⟩ := mem_filesBelow_iff.mp (List.mem_filter.mp hnames).1
  have halike := h.leadAlike (.inr (.inr ⟨kind, rfl⟩))
  simp only [visitTo, Project.readSource_eq_ok_iff, pathBelow_append]
  exact exists_congr fun content => exists_congr fun executable =>
    and_congr_left' (halike.entryAt_iff hm he hne).symm

theorem pathExists_of_entry (h : SpelledAlike p root top) {name : Bytes} (hname : IsName name)
    (hexists : p.tree.pathExists p.cwd (pathBelow p.root [encode "public", name]) = true) :
    p.tree.pathExists p.cwd (pathBelow root [encode "public", name]) = true := by
  have hnames : ∀ n ∈ [encode "public", name], IsName n := by
    rw [List.forall_mem_cons, List.forall_mem_singleton]
    exact ⟨by decide, hname⟩
  obtain ⟨e, hentry⟩ := pathExists_iff.mp hexists
  obtain ⟨l, hl, he⟩ := entryAt_eq_ok_iff.mp hentry
  obtain ⟨-, links, hleads⟩ :=
    (resolve_pathBelow_iff_isWithinLimits h.resolve (by simp) hnames).mp hl
  rw [← List.singleton_append] at hleads
  obtain ⟨m, first, last, -, hfirst, hlast⟩ := hleads.of_append
  obtain ⟨e', he'⟩ := hlast.exists_first hname
  have hcomes : ComesAcross p.tree top [encode "public", name] :=
    ⟨[encode "public"], [name], first, m, e', .inr (.inl rfl), rfl, hfirst, he'⟩
  exact pathExists_iff.mpr
    ⟨e, entryAt_eq_ok_iff.mpr ⟨l, (h.resolve_iff hnames hcomes l).mp hl, he⟩⟩

end SpelledAlike

structure VisitsAlike (p p' : Project) (v v' : Visit) : Prop where
  name : v'.name = v.name
  kind : v'.kind = v.kind
  known : v'.known = v.known
  text : ∀ text, p'.readSource v'.path = .ok text ↔ p.readSource v.path = .ok text

/-- Two states of a phase that differ at most in what has been reported. -/
def Agree (b b' : Progress) : Prop := b'.graph = b.graph ∧ b'.stats = b.stats

section OneVisit

variable {p' : Project} (h : VisitsAlike p p' v v')

include h

theorem isMarked_of_alike (g : UsageGraph) : v'.isMarked g = v.isMarked g := by
  rw [Visit.isMarked, Visit.isMarked, h.name, h.kind, h.known]

theorem found_of_alike : found p' v' = found p v := by
  rw [found, found]
  cases hp : p.readSource v.path with
  | ok text => rw [(h.text text).mpr hp, h.kind]
  | error f =>
    cases hp' : p'.readSource v'.path with
    | ok text => exact absurd ((h.text text).mp hp') (by simp [hp])
    | error f' => rfl

theorem isReadable_of_alike : isReadable p' v' = isReadable p v := by
  rw [isReadable, isReadable]
  cases hp : p.readSource v.path with
  | ok text => rw [(h.text text).mpr hp]
  | error f =>
    cases hp' : p'.readSource v'.path with
    | ok text => exact absurd ((h.text text).mp hp') (by simp [hp])
    | error f' => rfl

/-- Two visits to the same file do the same to a phase. -/
theorem visit_agree (hb : Agree b b') : Agree (visit p b v) (visit p' b' v') := by
  obtain ⟨hgraph, hstats⟩ := hb
  have hmark : v'.isMarked b'.graph = v.isMarked b.graph := by rw [hgraph, isMarked_of_alike h]
  constructor
  · rw [graph_visit, graph_visit, afterVisit, afterVisit, hmark, found_of_alike h, h.name, hgraph]
  · cases hmarked : v.isMarked b.graph with
    | false =>
      rw [stats_visit_of_not_marked hmarked, stats_visit_of_not_marked (hmark.trans hmarked),
        hstats]
    | true =>
      rw [stats_visit_of_marked hmarked, stats_visit_of_marked (hmark.trans hmarked), hstats,
        isReadable_of_alike h]

end OneVisit

namespace SpelledAlike

theorem visitsAlike (h : SpelledAlike p root top) (hnames : names ∈ visitedNames p kind) :
    VisitsAlike p (p.spelled root) (visitTo p kind names) (visitTo (p.spelled root) kind names) where
  name := rfl
  kind := rfl
  known := by
    cases kind with
    | handler => exact Path.stem_pathBelow _ _ (by simp [folderNames]) (isName_of_visited hnames)
    | route => rfl
    | template => rfl
  text := h.readSource_iff hnames

theorem visitAll_agree (h : SpelledAlike p root top) (kind : SourceKind) (phase : Phase)
    (events events' : List Event) (g : UsageGraph) :
    Agree (visitAll p phase events (visitsOf p kind) g)
      (visitAll (p.spelled root) phase events' (visitsOf (p.spelled root) kind) g) := by
  rw [visitAll, visitAll, visitsOf, visitsOf, h.visitedNames_eq, List.foldl_map, List.foldl_map]
  exact List.foldl_rel (r := Agree) ⟨rfl, rfl⟩ fun names hnames _ _ hb =>
    visit_agree (h.visitsAlike hnames) hb

theorem markEntry_agree (h : SpelledAlike p root top) {name : String} (hname : name ∈ entryFiles)
    (hb : Agree b b') : Agree (markEntry p b name) (markEntry (p.spelled root) b' name) := by
  have hproper : IsName (encode name) := by
    have hall : ∀ n ∈ entryFiles, IsName (encode n) := by decide
    exact hall name hname
  have hexists : (p.spelled root).tree.pathExists (p.spelled root).cwd
      (Path.join ((p.spelled root).pathTo Layout.publicDir) name) =
        p.tree.pathExists p.cwd (Path.join (p.pathTo Layout.publicDir) name) :=
    Bool.eq_iff_iff.mpr ⟨h.symm.pathExists_of_entry hproper, h.pathExists_of_entry hproper⟩
  obtain ⟨hgraph, hstats⟩ := hb
  rw [markEntry, markEntry, hexists]
  cases p.tree.pathExists p.cwd (Path.join (p.pathTo Layout.publicDir) name) with
  | false => exact ⟨hgraph, by simp [hstats]⟩
  | true => exact ⟨by simp [hgraph], by simp [hstats]⟩

theorem addCandidate_agree (path : String) (hb : Agree b b') :
    Agree (addCandidate b path) (addCandidate b' path) := by
  obtain ⟨hgraph, hstats⟩ := hb
  exact ⟨by rw [addCandidate, addCandidate, hgraph], by rw [addCandidate, addCandidate, hstats]⟩

/-- A phase does the same under both paths. -/
theorem work_agree (h : SpelledAlike p root top) (excludes : List String) (phase : Phase)
    (g : UsageGraph) :
    Agree (work ⟨p, excludes⟩ phase g) (work ⟨p.spelled root, excludes⟩ phase g) := by
  cases phase with
  | routes =>
    simp only [work, routeVisits_eq]
    exact h.visitAll_agree _ _ _ _ _
  | controllers =>
    simp only [work, controllerVisits_eq]
    exact h.visitAll_agree _ _ _ _ _
  | templates =>
    simp only [work, templateVisits_eq]
    exact h.visitAll_agree _ _ _ _ _
  | assets =>
    simp only [work]
    exact List.foldl_rel (r := Agree) ⟨rfl, rfl⟩ fun name hname _ _ hb =>
      h.markEntry_agree hname hb
  | enumeration =>
    simp only [work, h.candidates_eq]
    exact List.foldl_rel (r := Agree) ⟨rfl, rfl⟩ fun path _ _ _ hb =>
      addCandidate_agree path hb

/-- A run finds the same under both paths. -/
theorem run_eq (h : SpelledAlike p root top) (excludes : List String) (g : UsageGraph) :
    (run ⟨p.spelled root, excludes⟩ g).graph = (run ⟨p, excludes⟩ g).graph ∧
      (run ⟨p.spelled root, excludes⟩ g).stats = (run ⟨p, excludes⟩ g).stats := by
  refine List.foldl_rel (r := fun found found' : Findings =>
    found.graph = found'.graph ∧ found.stats = found'.stats) ⟨rfl, rfl⟩ ?_
  rintro phase - found' found ⟨hgraph, hstats⟩
  obtain ⟨hwork, hcounts⟩ := h.work_agree excludes phase found.graph
  refine ⟨?_, ?_⟩
  · rw [Findings.andRun, Findings.andRun, runPhase, runPhase, hgraph]
    exact hwork
  · rw [Findings.andRun, Findings.andRun, runPhase, runPhase, hgraph, hstats]
    exact congrArg (found.stats ++ [·]) hcounts

end SpelledAlike

end Survey

end UnusedAssets
