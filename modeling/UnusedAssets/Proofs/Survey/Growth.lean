import UnusedAssets.Proofs.Analysis
import UnusedAssets.Proofs.FileTree.Growth
import UnusedAssets.Proofs.Survey.Marking
import UnusedAssets.Proofs.Survey.Visits

/-!
# Runs in a tree that has grown

More files, and files that refer to more, give a graph that holds more (`run_le_run`): a file in use
stays in use. Each visit of the smaller run has its turn in the larger one too, among others, and
there it finds a graph that holds all that it would have found.
-/

namespace UnusedAssets

open Text FileTree

def Project.inTree (p : Project) (t : FileTree) : Project := { p with tree := t }

namespace Survey

variable {p p' : Project} {t' : FileTree} {g g' : UsageGraph} {v : Visit} {vs vs' : List Visit}
  {R : Location → Bytes → Bytes → Prop} {kind : SourceKind} {path : String}

theorem le_afterVisit (p : Project) (g : UsageGraph) (v : Visit) : g ≤ afterVisit p g v := by
  unfold afterVisit
  split
  · exact (g.le_markUsed v.name).trans (UsageGraph.le_applyAll _ _ _)
  · exact le_refl g

/-- One visit adds more to a graph that holds more. -/
theorem afterVisit_le_afterVisit (hg : g ≤ g') (h : ∀ r ∈ found p v, r ∈ found p' v) :
    afterVisit p g v ≤ afterVisit p' g' v := by
  cases hmark : v.isMarked g with
  | true =>
    rw [afterVisit, afterVisit, if_pos hmark, if_pos (Visit.isMarked_of_le hg hmark)]
    exact UsageGraph.applyAll_le_applyAll (UsageGraph.markUsed_le_markUsed hg _) _ h
  | false =>
    rw [afterVisit, if_neg (by simp [hmark])]
    exact hg.trans (le_afterVisit p' g' v)

/-- More visits add more to a graph that holds more. -/
theorem afterVisits_le_afterVisits (hvs : vs.Sublist vs') (hg : g ≤ g')
    (h : ∀ v ∈ vs, ∀ r ∈ found p v, r ∈ found p' v) :
    afterVisits p g vs ≤ afterVisits p' g' vs' := by
  induction hvs generalizing g g' with
  | slnil => exact hg
  | cons v _ ih => exact ih (hg.trans (le_afterVisit p' g' v)) h
  | cons_cons v _ ih =>
    refine ih (afterVisit_le_afterVisit hg (h v List.mem_cons_self)) ?_
    exact fun w hw => h w (List.mem_cons_of_mem _ hw)

section Grown

variable (h : p.tree.GrowsTo t' R)

include h

theorem visitsOf_sublist (kind : SourceKind) :
    (visitsOf p kind).Sublist (visitsOf (p.inTree t') kind) :=
  ((h.filesBelow_sublist p.cwd _).filter _).map _

theorem visits_sublist : (visits p).Sublist (visits (p.inTree t')) := by
  rw [visits_eq, visits_eq]
  exact ((visitsOf_sublist h _).append (visitsOf_sublist h _)).append (visitsOf_sublist h _)

theorem mem_entryPaths_of_grown (hpath : path ∈ entryPaths p) :
    path ∈ entryPaths (p.inTree t') := by
  obtain ⟨name, hname, hexists, hpath⟩ := mem_entryPaths_iff.mp hpath
  exact mem_entryPaths_iff.mpr ⟨name, hname, h.pathExists hexists, hpath⟩

theorem mem_candidates_of_grown {excludes : List String} (hpath : path ∈ p.candidates excludes) :
    path ∈ (p.inTree t').candidates excludes := by
  rw [Project.mem_candidates] at hpath ⊢
  refine hpath.imp_left fun hlisted => ?_
  obtain ⟨names, hn, hpath⟩ := hlisted
  exact ⟨names, h.mem_filesBelow hn, hpath⟩

end Grown

/-- Whether a content refers to all that another refers to, as far as visits to that file search it:
it is a text, and the references of every kind looked for are found in it. -/
def RefersToMore (p : Project) (l : Location) (content content' : Bytes) : Prop :=
  ∀ v ∈ visits p, p.tree.resolve p.cwd v.path = .ok l → ∀ text, decode? content = some text →
    ∃ text', decode? content' = some text' ∧ ∀ r ∈ extract v.kind text, r ∈ extract v.kind text'

theorem refersToMore_encode {l : Location} {text text' : String}
    (h : ∀ kind, ∀ r ∈ extract kind text, r ∈ extract kind text') :
    RefersToMore p l (encode text) (encode text') := by
  intro v _ _ read hread
  rw [decode?_encode, Option.some.injEq] at hread
  subst hread
  exact ⟨text', decode?_encode text', h v.kind⟩

theorem refersToMore_refl (l : Location) (content : Bytes) : RefersToMore p l content content :=
  fun _ _ _ text htext => ⟨text, htext, fun _ hr => hr⟩

theorem mem_found_of_grown (h : p.tree.GrowsTo t' (RefersToMore p)) (hv : v ∈ visits p) :
    ∀ r ∈ found p v, r ∈ found (p.inTree t') v := by
  intro r hr
  obtain ⟨text, htext, hr⟩ := mem_found_iff.mp hr
  obtain ⟨content, executable, hentry, hcontent⟩ := Project.readSource_eq_ok_iff.mp htext
  obtain ⟨l, content', executable', hresolve, hentry', hmore⟩ := h.entryAt_file hentry
  obtain ⟨text', hcontent', hrefs⟩ := hmore v hv hresolve text hcontent
  exact mem_found_iff.mpr
    ⟨text', Project.readSource_eq_ok_iff.mpr ⟨_, _, hentry', hcontent'⟩, hrefs r hr⟩

/-- A run in a tree that has grown, from a graph that holds more, ends in a graph that holds more;
no file in use is unused in it. -/
theorem run_le_run (excludes : List String) (hg : g ≤ g')
    (h : p.tree.GrowsTo t' (RefersToMore p)) :
    (run ⟨p, excludes⟩ g).graph ≤ (run ⟨p.inTree t', excludes⟩ g').graph ∧
      ∀ path ∈ (run ⟨p, excludes⟩ g).graph.used,
        path ∉ (run ⟨p.inTree t', excludes⟩ g').graph.unused := by
  have hvisits : afterVisits p g (visits p) ≤
      afterVisits (p.inTree t') g' (visits (p.inTree t')) :=
    afterVisits_le_afterVisits (visits_sublist h) hg fun v hv => mem_found_of_grown h hv
  have hrun : (run ⟨p, excludes⟩ g).graph ≤ (run ⟨p.inTree t', excludes⟩ g').graph := by
    constructor
    · intro path hpath
      simp only [mem_candidates_run] at hpath ⊢
      exact hpath.imp (mem_candidates_of_grown h) (hg.candidates path)
    · intro path hpath
      simp only [mem_used_run] at hpath ⊢
      exact hpath.imp (mem_entryPaths_of_grown h) (hvisits.used path)
    · intro e he
      simp only [edges_run] at he ⊢
      exact hvisits.edges e he
    · intro name hname
      simp only [unresolved_run] at hname ⊢
      exact hvisits.unresolved name hname
  refine ⟨hrun, fun path hused hunused => ?_⟩
  exact (UsageGraph.mem_unused.mp hunused).2 (hrun.used path hused)

/-- The entries of a site with one route, which shows the view `about`; that view has the given
text, and another, `home`, has none. Nothing refers to the other files. -/
def siteEntries (about : String) : List (Location × Entry) :=
  [(["docs"], .folder), (["docs", "guide.txt"], .file [] false), (["notes.txt"], .file [] false),
    (["old.css"], .file [] false), (["resources"], .folder), (["resources", "views"], .folder),
    (["resources", "views", "about.blade.php"], .file (encode about) false),
    (["resources", "views", "home.blade.php"], .file [] false),
    (["routes"], .folder), (["routes", "web.php"], .file (encode "view('about')") false)]

def site (about : String) : Project where
  tree := .ofEntries (siteEntries about) (of_decide_eq_true (by rfl))
  cwd := []
  root := "/"

def siteWithNotes (about : String) : FileTree :=
  .ofEntries (siteEntries about ++ [((["todo.txt"] : Location), .file [] false)])
    (of_decide_eq_true (by rfl))

theorem extract_empty (kind : SourceKind) : extract kind "" = [] := by
  cases kind <;> decide +kernel

theorem site_growsTo : (site "").tree.GrowsTo (siteWithNotes "href='/home'")
    (RefersToMore (site "")) := by
  have hmore (l : Location) : RefersToMore (site "") l (encode "") (encode "href='/home'") := by
    refine refersToMore_encode fun kind r hr => ?_
    rw [extract_empty] at hr
    exact absurd hr List.not_mem_nil
  refine .of_entries ?_
  simp only [site, siteWithNotes, siteEntries, toList_ofEntries, List.forall_mem_cons]
  exact ⟨⟨.folder, by simp, trivial⟩, ⟨.file [] false, by simp, refersToMore_refl _ _⟩,
    ⟨.file [] false, by simp, refersToMore_refl _ _⟩,
    ⟨.file [] false, by simp, refersToMore_refl _ _⟩,
    ⟨.folder, by simp, trivial⟩, ⟨.folder, by simp, trivial⟩,
    ⟨.file (encode "href='/home'") false, by simp, hmore _⟩,
    ⟨.file [] false, by simp, refersToMore_refl _ _⟩, ⟨.folder, by simp, trivial⟩,
    ⟨.file (encode "view('about')") false, by simp, refersToMore_refl _ _⟩, by simp⟩

theorem run_le_run_site :
    (∅ : UsageGraph) ≤ ∅ ∧
      (site "").tree.GrowsTo (siteWithNotes "href='/home'") (RefersToMore (site "")) ∧
      (run ⟨site "", []⟩ ∅).graph ≤
        (run ⟨(site "").inTree (siteWithNotes "href='/home'"), []⟩ ∅).graph ∧
      ∀ path ∈ (run ⟨site "", []⟩ ∅).graph.used, path ∉
        (run ⟨(site "").inTree (siteWithNotes "href='/home'"), []⟩ ∅).graph.unused :=
  ⟨le_refl _, site_growsTo, run_le_run [] (le_refl _) site_growsTo⟩

end Survey

end UnusedAssets
