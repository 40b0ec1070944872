import UnusedAssets.Proofs.FileTree.Contents
import UnusedAssets.Proofs.Survey.RouteLinks

/-!
# Names that lead nowhere

A class that is imported from outside the application is a name that leads nowhere. It is noted, and
nothing that a survey decides asks for the notes: files that refer to the same apart from such names
leave the same in use, the same edges and the same counts (`run_of_refersToSame`).
-/

namespace UnusedAssets.Survey

open Text FileTree

variable {p : Project} {t' : FileTree} {g : UsageGraph} {v : Visit}

/-- Whether two contents refer to the same files and routes, as far as visits to that file search it:
both are texts or neither is, and of texts the same references are found but for those to nothing in
the project. -/
def RefersToSame (p : Project) (l : Location) (content content' : Bytes) : Prop :=
  ∀ v ∈ visits p, p.tree.resolve p.cwd v.path = .ok l →
    (decode? content).isSome = (decode? content').isSome ∧
      ∀ text text', decode? content = some text → decode? content' = some text' →
        ∀ r : Reference, r.Resolves → (r ∈ extract v.kind text ↔ r ∈ extract v.kind text')

theorem refersToSame_refl (l : Location) (content : Bytes) : RefersToSame p l content content := by
  intro v _ _
  refine ⟨rfl, fun text text' htext htext' r _ => ?_⟩
  rw [Option.some.inj (htext.symm.trans htext')]

theorem refersToSame_encode {l : Location} {text text' : String}
    (h : ∀ kind, ∀ r : Reference, r.Resolves → (r ∈ extract kind text ↔ r ∈ extract kind text')) :
    RefersToSame p l (encode text) (encode text') := by
  intro v _ _
  simp only [decode?_encode, Option.isSome_some, Option.some.injEq, true_and]
  rintro _ _ rfl rfl
  exact h v.kind

section RefersToSame

variable (h : p.tree.GrowsTo t' (RefersToSame p)) (h' : t'.GrowsTo p.tree fun _ _ _ => True)

include h h'

theorem sameTargets_of_refersToSame (hv : v ∈ visits p) : SameTargets p (p.inTree t') v := by
  intro r hr
  rcases h.files_or_none h' p.cwd v.path with
    ⟨l, content, executable, content', executable', hl, hentry, hentry', hsame⟩ | ⟨hnone, hnone'⟩
  · obtain ⟨hdecode, hrefs⟩ := hsame v hv hl
    rw [found_of_file hentry, found_of_file (p := p.inTree t') hentry']
    cases htext : decode? content with
    | none =>
      have htext' : decode? content' = none := by simpa [htext] using hdecode
      rw [htext']
    | some text =>
      rw [htext, Option.isSome_some, eq_comm, Option.isSome_iff_exists] at hdecode
      obtain ⟨text', htext'⟩ := hdecode
      rw [htext']
      exact hrefs text text' htext htext' r hr
  · rw [found_of_no_file hnone, found_of_no_file (p := p.inTree t') hnone']

theorem isReadable_of_refersToSame (hv : v ∈ visits p) :
    isReadable (p.inTree t') v = isReadable p v := by
  rcases h.files_or_none h' p.cwd v.path with
    ⟨l, content, executable, content', executable', hl, hentry, hentry', hsame⟩ | ⟨hnone, hnone'⟩
  · rw [isReadable_of_file hentry, isReadable_of_file (p := p.inTree t') hentry',
      (hsame v hv hl).1]
  · rw [isReadable_of_no_file hnone, isReadable_of_no_file (p := p.inTree t') hnone']

end RefersToSame

/-- Files may name other classes from outside the application: from any graph a run ends with the
same candidates, the same in use and unused and the same edges, and counts the same. -/
theorem run_of_refersToSame (excludes : List String) (g : UsageGraph)
    (h : p.tree.GrowsTo t' (RefersToSame p)) (h' : t'.GrowsTo p.tree fun _ _ _ => True) :
    (run ⟨p.inTree t', excludes⟩ g).graph.candidates = (run ⟨p, excludes⟩ g).graph.candidates ∧
      (run ⟨p.inTree t', excludes⟩ g).graph.used = (run ⟨p, excludes⟩ g).graph.used ∧
      (run ⟨p.inTree t', excludes⟩ g).graph.edges = (run ⟨p, excludes⟩ g).graph.edges ∧
      (run ⟨p.inTree t', excludes⟩ g).graph.unused = (run ⟨p, excludes⟩ g).graph.unused ∧
      (run ⟨p.inTree t', excludes⟩ g).stats = (run ⟨p, excludes⟩ g).stats := by
  have hpaths : p.tree.SamePaths t' := ⟨h.mono fun _ _ _ _ => trivial, h'⟩
  have hrefs : ∀ v ∈ visits p, SameTargets p (p.inTree t') v :=
    fun v hv => sameTargets_of_refersToSame h h' hv
  obtain ⟨hcandidates, hused, hedges⟩ := run_of_sameTargets hpaths hrefs excludes g
  refine ⟨hcandidates, hused, hedges, ?_, ?_⟩
  · rw [UsageGraph.unused, UsageGraph.unused, hcandidates, hused]
  · rw [stats_of_sameTargets hpaths hrefs, stats_run]
    refine List.map_congr_left fun phase _ => ?_
    have hread : ∀ v ∈ markedIn p g phase, isReadable (p.inTree t') v = isReadable p v :=
      fun v hv => isReadable_of_refersToSame h h'
        (markedVisits_sublist.subset (List.mem_filter.mp hv).1)
    have hanalyzed : (markedIn p g phase).countP (isReadable (p.inTree t')) =
        (markedIn p g phase).countP (isReadable p) :=
      List.countP_congr fun v hv => by rw [hread v hv]
    have hfailed : ((markedIn p g phase).countP fun v => !isReadable (p.inTree t') v) =
        (markedIn p g phase).countP fun v => !isReadable p v :=
      List.countP_congr fun v hv => by rw [hread v hv]
    simp only [counters, hanalyzed, hfailed]

section Import

/-- The same content, but that a route file which shows the view `about` imports a class too. -/
def withImport (content : Bytes) : Bytes :=
  if content = encode "view('about')" then encode "use Carbon\\Carbon; view('about')" else content

theorem extract_withImport (kind : SourceKind) :
    extract kind "use Carbon\\Carbon; view('about')" = extract kind "view('about')" ∨
      extract kind "use Carbon\\Carbon; view('about')" =
        .classImport "Carbon\\Carbon" :: extract kind "view('about')" := by
  cases kind <;> decide +kernel

theorem refersToSame_withImport (l : Location) (content : Bytes) :
    RefersToSame p l content (withImport content) := by
  rw [withImport]
  split
  · next hcontent =>
    subst hcontent
    refine refersToSame_encode fun kind r hr => ?_
    have hne : r ≠ .classImport "Carbon\\Carbon" := by
      rintro rfl
      exact hr "Carbon\\Carbon" (by decide)
    rcases extract_withImport kind with hsame | hmore
    · rw [hsame]
    · rw [hmore, List.mem_cons, or_iff_right hne]
  · exact refersToSame_refl l content

theorem found_withImport : .classImport "Carbon\\Carbon" ∈
    found ((site "").inTree ((site "").tree.mapContents withImport)) toWeb := by
  have hgrows : (site "").tree.GrowsTo ((site "").tree.mapContents withImport)
      (fun _ content content' => content' = withImport content) :=
    growsTo_mapContents fun _ _ _ _ => rfl
  obtain ⟨-, content', executable', -, hentry', rfl⟩ := hgrows.entryAt_file (entryAt_toWeb "")
  rw [withImport, if_pos rfl] at hentry'
  rw [found_of_file hentry', decode?_encode]
  decide +kernel

theorem import_unresolved : "Carbon\\Carbon" ∈
    (run ⟨(site "").inTree ((site "").tree.mapContents withImport), []⟩ ∅).graph.unresolved := by
  have hvisits : visits ((site "").inTree ((site "").tree.mapContents withImport)) =
      [toWeb, toAbout, toHome] :=
    (visits_of_samePaths (samePaths_mapContents _ _)).trans (visits_site "")
  have hmark : toWeb.isMarked ∅ = true := rfl
  rw [unresolved_run, mem_unresolved_afterVisits, hvisits, markedVisits, if_pos hmark]
  exact .inr ⟨toWeb, List.mem_cons_self, _, found_withImport, by decide⟩

theorem none_unresolved (name : String) :
    name ∉ (run ⟨site "", []⟩ ∅).graph.unresolved := by
  rw [unresolved_run, mem_unresolved_afterVisits, or_iff_right UsageGraph.not_mem_unresolved_empty]
  rintro ⟨v, hv, r, hr, htarget⟩
  replace hv := markedVisits_sublist.subset hv
  simp only [visits_site, List.mem_cons, List.not_mem_nil, or_false] at hv
  rcases hv with rfl | rfl | rfl
  · rw [found_toWeb, List.mem_singleton] at hr
    rw [hr] at htarget
    exact absurd htarget (by simp [Reference.target])
  · rw [found_toAbout, extract_empty] at hr
    exact absurd hr List.not_mem_nil
  · rw [found_toHome] at hr
    exact absurd hr List.not_mem_nil

theorem run_of_refersToSame_site :
    (site "").tree.GrowsTo ((site "").tree.mapContents withImport) (RefersToSame (site "")) ∧
      ((site "").tree.mapContents withImport).GrowsTo (site "").tree (fun _ _ _ => True) ∧
      "Carbon\\Carbon" ∈
        (run ⟨(site "").inTree ((site "").tree.mapContents withImport), []⟩ ∅).graph.unresolved ∧
      "Carbon\\Carbon" ∉ (run ⟨site "", []⟩ ∅).graph.unresolved ∧
      (run ⟨(site "").inTree ((site "").tree.mapContents withImport), []⟩ ∅).graph.candidates =
        (run ⟨site "", []⟩ ∅).graph.candidates ∧
      (run ⟨(site "").inTree ((site "").tree.mapContents withImport), []⟩ ∅).graph.used =
        (run ⟨site "", []⟩ ∅).graph.used ∧
      (run ⟨(site "").inTree ((site "").tree.mapContents withImport), []⟩ ∅).graph.edges =
        (run ⟨site "", []⟩ ∅).graph.edges ∧
      (run ⟨(site "").inTree ((site "").tree.mapContents withImport), []⟩ ∅).graph.unused =
        (run ⟨site "", []⟩ ∅).graph.unused ∧
      (run ⟨(site "").inTree ((site "").tree.mapContents withImport), []⟩ ∅).stats =
        (run ⟨site "", []⟩ ∅).stats := by
  have hgrows : (site "").tree.GrowsTo ((site "").tree.mapContents withImport)
      (RefersToSame (site "")) :=
    growsTo_mapContents fun l content _ _ => refersToSame_withImport l content
  have hback := mapContents_growsTo (site "").tree withImport
  exact ⟨hgrows, hback, import_unresolved, none_unresolved _,
    run_of_refersToSame [] ∅ hgrows hback⟩

end Import

end UnusedAssets.Survey
