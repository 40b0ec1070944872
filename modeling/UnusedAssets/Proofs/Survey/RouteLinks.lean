import UnusedAssets.Proofs.FileTree.LinkFree
import UnusedAssets.Proofs.Survey.SamePaths

/-!
# Links to routes

A link to a route marks nothing by itself, but it makes an edge, and an edge speaks for files: by
its target if a class or a view has that name, by its source if the path of the source contains it.
As long as no link is the only reason to mark a file, the routes that are linked to make no
difference to what is in use (`run_of_idle_links`). A link that is the only reason does make one
(`home_is_used_by_link`).
-/

namespace UnusedAssets.Survey

open Text FileTree

variable {p p' : Project} {t' : FileTree} {g : UsageGraph} {v w : Visit} {vs : List Visit}
  {r : Reference} {x : String}

theorem target_eq_route_iff : r.target = .route x ↔ r = .routePath x := by
  cases r with
  | classImport name =>
    rw [Reference.target]
    split <;> simp
  | _ => simp [Reference.target]

/-- Whether the links to routes in the file of one visit are no reason to mark the file of another
that its references to files are not too. -/
def RouteLinksIdle (p : Project) (w v : Visit) : Prop :=
  ∀ x, .routePath x ∈ found p w → (Edge.mk x w.name).SpeaksFor v →
    ∃ r ∈ found p w, ∃ path, r.target = .file path ∧ (Edge.mk path w.name).SpeaksFor v

/-- Whether the file of a visit refers to the same in two projects, links to routes apart. -/
def SameButLinks (p p' : Project) (v : Visit) : Prop :=
  ∀ r, (∀ x, r ≠ .routePath x) → (r ∈ found p v ↔ r ∈ found p' v)

theorem SameButLinks.symm (h : SameButLinks p p' v) : SameButLinks p' p v :=
  fun r hr => (h r hr).symm

theorem SameButLinks.mem_of_file {path : String} (h : SameButLinks p p' v) (hr : r ∈ found p v)
    (htarget : r.target = .file path) : r ∈ found p' v := by
  refine (h r ?_).mp hr
  rintro x rfl
  exact absurd htarget (by simp [Reference.target])

theorem isMarked_of_idle (hmarked : markedVisits p' g vs = markedVisits p g vs)
    (hrefs : ∀ w ∈ vs, SameButLinks p p' w) (hidle : ∀ w ∈ vs, RouteLinksIdle p w v)
    (h : v.isMarked (afterVisits p g vs) = true) : v.isMarked (afterVisits p' g vs) = true := by
  rw [Visit.isMarked_iff] at h ⊢
  refine h.imp_right fun h => h.imp ?_ ?_
  · intro hused
    rw [mem_used_afterVisits] at hused ⊢
    rw [hmarked]
    refine hused.imp_right fun hused => ?_
    obtain ⟨w, hw, hname⟩ := hused
    refine ⟨w, hw, hname.imp_right fun href => ?_⟩
    obtain ⟨r, hr, htarget⟩ := href
    exact ⟨r, (hrefs w (markedVisits_sublist.subset hw)).mem_of_file hr htarget, htarget⟩
  · intro hedge
    obtain ⟨e, he, hspeaks⟩ := hedge
    -- Whatever made the edge, a reference to a file in the same source speaks for `v` as well.
    have hfile : e ∈ g.edges ∨ ∃ w ∈ markedVisits p g vs, ∃ r ∈ found p w, ∃ path,
        r.target = .file path ∧ (Edge.mk path w.name).SpeaksFor v := by
      refine (mem_edges_afterVisits.mp he).imp_right fun he => ?_
      obtain ⟨w, hw, hname, r, hr, htarget⟩ := he
      have he : e = ⟨e.target, w.name⟩ := by rw [hname]
      rw [he] at hspeaks
      rcases htarget with htarget | htarget
      · exact ⟨w, hw, r, hr, _, htarget, hspeaks⟩
      · rw [target_eq_route_iff.mp htarget] at hr
        exact ⟨w, hw, hidle w (markedVisits_sublist.subset hw) _ hr hspeaks⟩
    rcases hfile with he | hfile
    · exact ⟨e, mem_edges_afterVisits.mpr (.inl he), hspeaks⟩
    · obtain ⟨w, hw, r, hr, path, htarget, hspeaks⟩ := hfile
      have hr' := (hrefs w (markedVisits_sublist.subset hw)).mem_of_file hr htarget
      refine ⟨⟨path, w.name⟩, mem_edges_afterVisits.mpr (.inr ?_), hspeaks⟩
      exact ⟨w, hmarked ▸ hw, rfl, r, hr', .inl htarget⟩

/-- Idle links to routes do not change which files are marked. -/
theorem markedVisits_of_idle (hrefs : ∀ v ∈ vs, SameButLinks p p' v)
    (hidle : vs.Pairwise fun w v => RouteLinksIdle p w v ∧ RouteLinksIdle p' w v) :
    markedVisits p' g vs = markedVisits p g vs := by
  induction vs using List.reverseRecOn with
  | nil => rfl
  | append_singleton vs v ih =>
    obtain ⟨hbefore, -, hlast⟩ := List.pairwise_append.mp hidle
    have hrefs' : ∀ w ∈ vs, SameButLinks p p' w :=
      fun w hw => hrefs w (List.mem_append_left _ hw)
    have hlast' : ∀ w ∈ vs, RouteLinksIdle p w v ∧ RouteLinksIdle p' w v :=
      fun w hw => hlast w hw v List.mem_cons_self
    have hmarked := ih hrefs' hbefore
    have hturn : v.isMarked (afterVisits p' g vs) = v.isMarked (afterVisits p g vs) := by
      rw [Bool.eq_iff_iff]
      constructor
      · exact isMarked_of_idle hmarked.symm (fun w hw => (hrefs' w hw).symm)
          fun w hw => (hlast' w hw).2
      · exact isMarked_of_idle hmarked hrefs' fun w hw => (hlast' w hw).1
    rw [markedVisits_append, markedVisits_append, hmarked, markedVisits, markedVisits, hturn]
    rfl

/-- Views may link to other routes, and the same files are in use and the same are unused, as long
as no link to a route is the only reason to mark a file. -/
theorem run_of_idle_links (excludes : List String) (h : p.tree.SamePaths t')
    (hrefs : ∀ v ∈ visits p, SameButLinks p (p.inTree t') v)
    (hidle : (visits p).Pairwise fun w v =>
      RouteLinksIdle p w v ∧ RouteLinksIdle (p.inTree t') w v) :
    (run ⟨p.inTree t', excludes⟩ g).graph.used = (run ⟨p, excludes⟩ g).graph.used ∧
      (run ⟨p.inTree t', excludes⟩ g).graph.unused = (run ⟨p, excludes⟩ g).graph.unused := by
  have hmarked := markedVisits_of_idle (g := g) hrefs hidle
  have hused : (run ⟨p.inTree t', excludes⟩ g).graph.used =
      (run ⟨p, excludes⟩ g).graph.used := by
    refine OrderedSet.ext_mem fun x => ?_
    simp only [mem_used_run, mem_used_afterVisits, visits_of_samePaths h, hmarked]
    refine or_congr (entryPaths_of_samePaths h) (or_congr_right ?_)
    refine exists_congr fun v => and_congr_right fun hv => or_congr_right ?_
    have hsame := hrefs v (markedVisits_sublist.subset hv)
    refine exists_congr fun r => and_congr_left fun htarget => ?_
    exact ⟨fun hr => hsame.symm.mem_of_file hr htarget, fun hr => hsame.mem_of_file hr htarget⟩
  have hcandidates : (run ⟨p.inTree t', excludes⟩ g).graph.candidates =
      (run ⟨p, excludes⟩ g).graph.candidates := by
    refine OrderedSet.ext_mem fun x => ?_
    simp only [mem_candidates_run]
    rw [candidates_of_samePaths h]
  refine ⟨hused, ?_⟩
  rw [UsageGraph.unused, UsageGraph.unused, hused, hcandidates]

section Site

theorem linkFree_site (about : String) : (site about).tree.LinkFree :=
  .of_entries (by simp [site, siteEntries])

theorem resolve_site (about : String) :
    (site about).tree.resolve (site about).cwd (site about).root = .ok [] :=
  resolve_top _ _

def siteNames : SourceKind → List (List Bytes)
  | .route => [["web.php"]]
  | .handler => []
  | .template => [["about.blade.php"], ["home.blade.php"]]

theorem visitedNames_site (about : String) (kind : SourceKind) :
    visitedNames (site about) kind = siteNames kind := by
  have hlinks := linkFree_site about
  have hroot : (site about).root = "/" := rfl
  have hpath : pathFault? (pathBelow "/" (folderNames kind)) = none := by
    cases kind <;> decide
  cases kind with
  | route =>
    have hbelow : (site about).tree.below ([] ++ folderNames .route) =
        [([encode "web.php"], .file (encode "view('about')") false)] := rfl
    have hlisted : isListed (pathBelow "/" (folderNames .route)) [encode "web.php"] = true := by
      decide
    rw [visitedNames_of_linkFree hlinks (resolve_site about) hpath rfl, hbelow, hroot]
    simp [hlisted, isVisited, siteNames]
  | handler =>
    have habsent : (site about).tree.lookup? ([] ++ folderNames .handler) = none := rfl
    rw [visitedNames, hlinks.filesBelow_eq,
      hlinks.entriesBelow_eq (resolve_site about) isName_of_folderNames, habsent, if_neg (by simp)]
    rfl
  | template =>
    have hbelow : (site about).tree.below ([] ++ folderNames .template) =
        [([encode "about.blade.php"], .file (encode about) false),
          ([encode "home.blade.php"], .file [] false)] := rfl
    have hlisted : ∀ name ∈ [encode "about.blade.php", encode "home.blade.php"],
        isListed (pathBelow "/" (folderNames .template)) [name] = true ∧
          isVisited .template [name] = true := by
      decide
    simp only [List.forall_mem_cons, List.not_mem_nil, false_imp_iff, implies_true] at hlisted
    rw [visitedNames_of_linkFree hlinks (resolve_site about) hpath rfl, hbelow, hroot]
    simp [hlisted, siteNames]

def toWeb : Visit := ⟨"/routes/web.php", "routes/web.php", .route, ""⟩

def toAbout : Visit :=
  ⟨"/resources/views/about.blade.php", "resources/views/about.blade.php", .template, "about"⟩

def toHome : Visit :=
  ⟨"/resources/views/home.blade.php", "resources/views/home.blade.php", .template, "home"⟩

theorem visits_site (about : String) : visits (site about) = [toWeb, toAbout, toHome] := by
  have hvisit (kind : SourceKind) (names : List Bytes) :
      visitTo (site about) kind names = visitTo (site "") kind names := rfl
  rw [visits_eq]
  simp only [visitsOf, visitedNames_site, siteNames, List.map_cons, List.map_nil, hvisit]
  decide

theorem entryAt_site {about : String} (names : List Bytes) (content : Bytes)
    (hnames : ∀ n ∈ names, IsName n) (hpath : pathFault? (pathBelow "/" names) = none)
    (hl : (site about).tree.lookup? names = some (.file content false)) :
    (site about).tree.entryAt (site about).cwd (pathBelow "/" names) =
      .ok (.file content false) :=
  ((linkFree_site about).entryAt_pathBelow_iff (resolve_site about) hnames).mpr ⟨hpath, hl⟩

theorem entryAt_toWeb (about : String) : (site about).tree.entryAt (site about).cwd toWeb.path =
    .ok (.file (encode "view('about')") false) :=
  entryAt_site ["routes", "web.php"] _ (by decide) (by decide) rfl

theorem entryAt_toAbout (about : String) :
    (site about).tree.entryAt (site about).cwd toAbout.path = .ok (.file (encode about) false) :=
  entryAt_site ["resources", "views", "about.blade.php"] _ (by decide) (by decide) rfl

theorem entryAt_toHome (about : String) :
    (site about).tree.entryAt (site about).cwd toHome.path = .ok (.file [] false) :=
  entryAt_site ["resources", "views", "home.blade.php"] _ (by decide) (by decide) rfl

theorem found_toWeb (about : String) : found (site about) toWeb = [.view "about"] := by
  rw [found_of_file (entryAt_toWeb about), decode?_encode]
  decide +kernel

theorem found_toAbout (about : String) : found (site about) toAbout = extract .template about := by
  rw [found_of_file (entryAt_toAbout about), decode?_encode]
  rfl

theorem found_toHome (about : String) : found (site about) toHome = [] := by
  have htext : decode? [] = some "" := decode?_encode ""
  rw [found_of_file (entryAt_toHome about), htext]
  exact extract_empty _

theorem site_samePaths (about about' : String) :
    (site about).tree.SamePaths (site about').tree := by
  have hgrows (s s' : String) : (site s).tree.GrowsTo (site s').tree fun _ _ _ => True :=
    .of_entries (by simp [site, siteEntries, Entry.StandsFor])
  exact ⟨hgrows about about', hgrows about' about⟩

theorem inTree_site (about about' : String) :
    (site about).inTree (site about').tree = site about' := rfl

def linkTo (route : String) : String := "href='/" ++ route ++ "'"

theorem extract_linkTo : ∀ route ∈ ["home", "login", "logout"],
    extract .template (linkTo route) = [.routePath route] := by
  decide +kernel

theorem sameButLinks_site {route route' : String}
    (h : extract .template (linkTo route) = [.routePath route])
    (h' : extract .template (linkTo route') = [.routePath route']) :
    ∀ v ∈ visits (site (linkTo route)),
      SameButLinks (site (linkTo route)) (site (linkTo route')) v := by
  rw [visits_site]
  intro v hv r hr
  simp only [List.mem_cons, List.not_mem_nil, or_false] at hv
  rcases hv with rfl | rfl | rfl
  · rw [found_toWeb, found_toWeb]
  · rw [found_toAbout, found_toAbout, h, h', List.mem_singleton, List.mem_singleton]
    exact iff_of_false (hr route) (hr route')
  · rw [found_toHome, found_toHome]

theorem routeLinksIdle_site {route : String}
    (h : extract .template (linkTo route) = [.routePath route])
    (hidle : ¬ (Edge.mk route toAbout.name).SpeaksFor toHome) :
    [toWeb, toAbout, toHome].Pairwise (RouteLinksIdle (site (linkTo route))) := by
  have hweb (v : Visit) : RouteLinksIdle (site (linkTo route)) toWeb v := by
    intro x hx
    rw [found_toWeb] at hx
    exact absurd hx (by simp)
  have habout : RouteLinksIdle (site (linkTo route)) toAbout toHome := by
    intro x hx hspeaks
    rw [found_toAbout, h, List.mem_singleton, Reference.routePath.injEq] at hx
    exact absurd (hx ▸ hspeaks) hidle
  simp [hweb, habout]

theorem run_of_idle_links_site :
    (site (linkTo "login")).tree.SamePaths (site (linkTo "logout")).tree ∧
      (∀ v ∈ visits (site (linkTo "login")),
        SameButLinks (site (linkTo "login")) (site (linkTo "logout")) v) ∧
      (visits (site (linkTo "login"))).Pairwise (fun w v =>
        RouteLinksIdle (site (linkTo "login")) w v ∧
          RouteLinksIdle (site (linkTo "logout")) w v) ∧
      (run ⟨site (linkTo "logout"), []⟩ ∅).graph.used =
        (run ⟨site (linkTo "login"), []⟩ ∅).graph.used ∧
      (run ⟨site (linkTo "logout"), []⟩ ∅).graph.unused =
        (run ⟨site (linkTo "login"), []⟩ ∅).graph.unused := by
  have hlogin := extract_linkTo "login" (by decide)
  have hlogout := extract_linkTo "logout" (by decide)
  have hpaths := site_samePaths (linkTo "login") (linkTo "logout")
  have hrefs := sameButLinks_site hlogin hlogout
  have hidle : (visits (site (linkTo "login"))).Pairwise (fun w v =>
      RouteLinksIdle (site (linkTo "login")) w v ∧
        RouteLinksIdle (site (linkTo "logout")) w v) := by
    rw [visits_site]
    exact (routeLinksIdle_site hlogin (by decide)).and
      (routeLinksIdle_site hlogout (by decide))
  have hrun := run_of_idle_links (g := ∅) [] hpaths
  rw [inTree_site] at hrun
  exact ⟨hpaths, hrefs, hidle, hrun hrefs hidle⟩

theorem markedVisits_site :
    markedVisits (site (linkTo "home")) ∅ (visits (site (linkTo "home"))) =
        [toWeb, toAbout, toHome] ∧
      markedVisits (site (linkTo "login")) ∅ (visits (site (linkTo "login"))) =
        [toWeb, toAbout] := by
  have hhome := extract_linkTo "home" (by decide)
  have hlogin := extract_linkTo "login" (by decide)
  simp only [visits_site, markedVisits, afterVisit, found_toWeb, found_toAbout, hhome, hlogin]
  decide

/-- The files of the site that have the name of a candidate. -/
theorem hasFile_site (about : String) : (site about).HasFile "docs/guide.txt" ∧
    (site about).HasFile "notes.txt" ∧ (site about).HasFile "old.css" ∧
    (site about).HasFile "resources/views/about.blade.php" ∧
    (site about).HasFile "resources/views/home.blade.php" := by
  have hfile {names : List Bytes} {content : Bytes} {text : String}
      (htext : Path.textOf names = text)
      (hlisted : names ≠ [] ∧ isListed "/" names = true)
      (hl : (site about).tree.lookup? names = some (.file content false)) :
      (site about).HasFile text :=
    htext ▸ Project.hasFile_of_lookup (resolve_site about) hlisted.1 hlisted.2 hl
  exact ⟨@hfile ["docs", "guide.txt"] _ _ (by decide) (by decide) rfl,
    @hfile ["notes.txt"] _ _ (by decide) (by decide) rfl,
    @hfile ["old.css"] _ _ (by decide) (by decide) rfl,
    @hfile ["resources", "views", "about.blade.php"] _ _ (by decide) (by decide)
      rfl,
    @hfile ["resources", "views", "home.blade.php"] _ _ (by decide) (by decide)
      rfl⟩

theorem home_is_candidate (about : String) :
    "resources/views/home.blade.php" ∈ (site about).candidates [] :=
  Project.mem_candidates_iff.mpr
    ⟨(hasFile_site about).2.2.2.2, ⟨".blade.php", by decide, by decide⟩, by simp⟩

/-- Of the site a route file and a view are in use, and nothing else but public entries. -/
theorem mem_used_site_iff (hentry : ∀ name ∈ entryFiles, x ≠ Layout.publicDir ++ "/" ++ name)
    (excludes : List String) : x ∈ (run ⟨site (linkTo "login"), excludes⟩ ∅).graph.used ↔
      x = "routes/web.php" ∨ x = "resources/views/about.blade.php" := by
  have hnone : x ∉ entryPaths (site (linkTo "login")) := by
    rw [mem_entryPaths_iff]
    rintro ⟨name, hname, -, hpath⟩
    exact hentry name hname hpath
  have habout : (Reference.view "about").target = .file "resources/views/about.blade.php" := by
    decide
  have hlogin : ∀ path, (Reference.routePath "login").target ≠ .file path := by
    intro path
    exact (by decide : (Reference.routePath "login").target = .route "login") ▸ by simp
  rw [mem_used_run, mem_used_afterVisits, markedVisits_site.2, or_iff_right hnone,
    or_iff_right UsageGraph.not_mem_used_empty]
  simp only [List.exists_mem_cons_iff, found_toWeb, found_toAbout,
    extract_linkTo "login" (by decide), List.not_mem_nil, false_and, exists_false, or_false, habout,
    hlogin, Target.file.injEq]
  constructor
  · rintro ((hweb | habout) | habout)
    · exact .inl hweb
    · exact .inr habout.symm
    · exact .inr habout
  · rintro (hweb | habout)
    · exact .inl (.inl hweb)
    · exact .inr habout

/-- Two sites differ only in what route a view links to, and another view is in use in one of them
and unused in the other. -/
theorem home_is_used_by_link :
    (site (linkTo "home")).tree.SamePaths (site (linkTo "login")).tree ∧
      (∀ l ≠ [encode "resources", encode "views", encode "about.blade.php"],
        (site (linkTo "home")).tree.lookup? l = (site (linkTo "login")).tree.lookup? l) ∧
      (∀ v ∈ visits (site (linkTo "home")),
        SameButLinks (site (linkTo "home")) (site (linkTo "login")) v) ∧
      "resources/views/home.blade.php" ∈ (run ⟨site (linkTo "home"), []⟩ ∅).graph.used ∧
      "resources/views/home.blade.php" ∈ (run ⟨site (linkTo "login"), []⟩ ∅).graph.unused := by
  have hlookup : ∀ l ≠ [encode "resources", encode "views", encode "about.blade.php"],
      (site (linkTo "home")).tree.lookup? l = (site (linkTo "login")).tree.lookup? l := by
    intro l hl
    by_cases hnil : l = []
    · rw [hnil]
      rfl
    · refine Option.ext fun e => ?_
      rw [lookup?_eq_some_iff hnil, lookup?_eq_some_iff hnil]
      simp [site, siteEntries, hl]
  have hused : "resources/views/home.blade.php" ∈ (run ⟨site (linkTo "home"), []⟩ ∅).graph.used :=
    name_mem_used_run (v := toHome) (by rw [markedVisits_site.1]; decide)
  have hunused : "resources/views/home.blade.php" ∉
      (run ⟨site (linkTo "login"), []⟩ ∅).graph.used := by
    rw [mem_used_site_iff (by decide)]
    decide
  have hcandidate := mem_candidates_run (s := ⟨site (linkTo "login"), []⟩) (g := ∅).mpr
    (.inl (home_is_candidate _))
  exact ⟨site_samePaths _ _, hlookup,
    sameButLinks_site (extract_linkTo "home" (by decide)) (extract_linkTo "login" (by decide)),
    hused, UsageGraph.mem_unused.mpr ⟨hcandidate, hunused⟩⟩

end Site

end UnusedAssets.Survey
