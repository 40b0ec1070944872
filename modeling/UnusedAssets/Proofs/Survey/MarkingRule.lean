import UnusedAssets.Proofs.FileTree.LinkFree
import UnusedAssets.Proofs.Survey.Evidence
import UnusedAssets.Proofs.Survey.Provenance

/-!
# What marks a controller or a view

In a run from nothing a controller or a view is marked by one file alone, a route file or one marked
before it. That file refers to it under one of its names, or it refers to anything at all and its
own path contains the name (`marking_rule`). What is in use never marks anything by itself, and only
views link to routes.
-/

namespace UnusedAssets

open Text

namespace Rule

variable {rule : Rule} {groups : List String} {x : String}

theorem routePath_not_mem_ofGroup {make : String → Reference} (h : ∀ s, make s ≠ .routePath x) :
    .routePath x ∉ ofGroup make groups := by
  unfold ofGroup
  split
  · rename_i s
    simpa using (h s).symm
  · exact List.not_mem_nil

theorem routePath_not_mem_handler (hrule : rule ∈ handlerRules) :
    .routePath x ∉ rule.references groups := by
  simp only [handlerRules, List.mem_cons, List.not_mem_nil, or_false] at hrule
  rcases hrule with rfl | rfl | rfl | rfl
  · exact routePath_not_mem_ofGroup (by simp)
  · exact routePath_not_mem_ofGroup (by simp)
  · unfold routeController
    dsimp only
    split <;> simp
  · exact routePath_not_mem_ofGroup (by simp)

end Rule

namespace Survey

open FileTree

variable {p : Project} {s v : Visit} {before after : List Visit} {path : String}

/-- The file of a visit is read, and one of its references comes out at `target`. -/
def Finds (p : Project) (s : Visit) (target : Target) : Prop :=
  ∃ text, p.readSource s.path = .ok text ∧ ∃ r ∈ extract s.kind text, r.target = target

def Reaches (p : Project) (s : Visit) (path : String) : Prop :=
  Finds p s (.file path) ∨ Finds p s (.route path)

theorem finds_iff {target : Target} :
    Finds p s target ↔ ∃ r ∈ found p s, r.target = target := by
  simp only [Finds, mem_found_iff]
  constructor
  · rintro ⟨text, htext, r, hr, htarget⟩
    exact ⟨r, ⟨text, htext, hr⟩, htarget⟩
  · rintro ⟨r, ⟨text, htext, hr⟩, htarget⟩
    exact ⟨text, htext, r, hr, htarget⟩

theorem reaches_iff : Reaches p s path ↔
    ∃ r ∈ found p s, r.target = .file path ∨ r.target = .route path := by
  rw [Reaches, finds_iff, finds_iff, ← exists_or]
  simp only [and_or_left]

/-- Only views link to routes. -/
theorem reaches_iff_file (hs : s.kind ≠ .template) : Reaches p s path ↔ Finds p s (.file path) := by
  refine or_iff_left ?_
  rintro ⟨text, -, r, hr, htarget⟩
  have htable : Rule.table s.kind = Rule.handlerRules := by
    cases hk : s.kind with
    | route => rfl
    | handler => rfl
    | template => exact absurd hk hs
  obtain ⟨rule, hrule, hr⟩ := List.mem_flatMap.mp hr
  obtain ⟨groups, -, hr⟩ := List.mem_flatMap.mp hr
  have hlink : r = .routePath path := by
    cases r with
    | classImport name =>
      rw [Reference.target] at htarget
      split at htarget <;> cases htarget
    | routePath _ => simpa [Reference.target] using htarget
    | _ => cases htarget
  rw [hlink] at hr
  rw [htable] at hrule
  exact Rule.routePath_not_mem_handler hrule hr

theorem mem_slash_name (h : v ∈ visits p) : '/' ∈ v.name.toList := by
  obtain ⟨kind, h⟩ := mem_visits_iff.mp h
  obtain ⟨names, hn, rfl⟩ := List.mem_map.mp h
  have hname : Path.textOf (folderNames kind ++ names) =
      Path.textOf (folderNames kind) ++ "/" ++ Path.textOf names := by
    rw [Path.textOf, List.map_append]
    exact joinWith_append "/" (by simp [folderNames_ne_nil]) (by simp [ne_nil_of_visited hn])
  simp [visitTo, hname]

/-- Of the visits before some point of a run those are marked that the whole run marks. -/
theorem mem_markedVisits_before (hvisits : visits p = before ++ after) :
    s ∈ markedVisits p ∅ before ↔ s ∈ before ∧ s ∈ markedVisits p ∅ (visits p) := by
  have hnodup : (before ++ after).Nodup := hvisits ▸ (nodup_paths_visits p).of_map _
  rw [hvisits, markedVisits_append, List.mem_append]
  constructor
  · intro hs
    exact ⟨markedVisits_sublist.subset hs, .inl hs⟩
  · rintro ⟨hmem, hs | hs⟩
    · exact hs
    · have hlater : s ∈ after := markedVisits_sublist.subset hs
      exact absurd rfl ((List.nodup_append.mp hnodup).2.2 s hmem s hlater)

theorem mem_markedVisits_turn (hvisits : visits p = before ++ v :: after) :
    v ∈ markedVisits p ∅ (visits p) ↔ v.isMarked (afterVisits p ∅ before) = true := by
  have hnodup : (before ++ v :: after).Nodup := hvisits ▸ (nodup_paths_visits p).of_map _
  obtain ⟨hother, -⟩ := List.nodup_cons.mp (List.nodup_middle.mp hnodup)
  rw [List.mem_append, not_or] at hother
  have hbefore : v ∉ markedVisits p ∅ before := fun h => hother.1 (markedVisits_sublist.subset h)
  rw [hvisits, markedVisits_append, List.mem_append, or_iff_right hbefore, markedVisits]
  split
  · rename_i hmarked
    exact iff_of_true List.mem_cons_self hmarked
  · rename_i hmarked
    exact iff_of_false (fun h => hother.2 (markedVisits_sublist.subset h)) hmarked

/-- At its turn a file is marked if it is a route file, or if some file marked before speaks for it. -/
theorem mem_markedVisits_iff_speaks (hvisits : visits p = before ++ v :: after) :
    v ∈ markedVisits p ∅ (visits p) ↔ v.kind = .route ∨
      ∃ s ∈ before, s ∈ markedVisits p ∅ (visits p) ∧
        ∃ path, Reaches p s path ∧ (Edge.mk path s.name).SpeaksFor v := by
  have hv : v ∈ visits p := by simp [hvisits]
  have hused : v.known ∈ (afterVisits p ∅ before).used →
      ∃ e ∈ (afterVisits p ∅ before).edges, e.SpeaksFor v := by
    intro hused
    rw [mem_used_afterVisits, or_iff_right UsageGraph.not_mem_used_empty] at hused
    obtain ⟨s, hs, hname | ⟨r, hr, htarget⟩⟩ := hused
    · -- A path in the project holds a slash, what else a file is known by does not.
      have hs : s ∈ visits p := by
        rw [hvisits]
        exact List.mem_append_left _ (markedVisits_sublist.subset hs)
      exact absurd (hname ▸ mem_slash_name hs) (not_mem_slash_known hv)
    · refine ⟨⟨v.known, s.name⟩, ?_, .inr (.inl rfl)⟩
      exact mem_edges_afterVisits.mpr (.inr ⟨s, hs, rfl, r, hr, .inl htarget⟩)
  rw [mem_markedVisits_turn hvisits, Visit.isMarked_iff, or_iff_right_of_imp hused]
  refine or_congr_right ?_
  simp only [mem_edges_afterVisits, UsageGraph.not_mem_edges_empty, false_or, ← reaches_iff,
    mem_markedVisits_before hvisits]
  constructor
  · rintro ⟨⟨path, source⟩, ⟨s, ⟨hs, hmarked⟩, rfl, hreach⟩, hspeaks⟩
    exact ⟨s, hs, hmarked, path, hreach, hspeaks⟩
  · rintro ⟨s, hs, hmarked, path, hreach, hspeaks⟩
    exact ⟨⟨path, s.name⟩, ⟨s, ⟨hs, hmarked⟩, rfl, hreach⟩, hspeaks⟩

theorem exists_speaksFor_iff (reached : String → Prop) :
    (∃ path, reached path ∧ (Edge.mk path s.name).SpeaksFor v) ↔
      reached v.name ∨ reached v.known ∨
        (v.kind = .template ∧ reached (Layout.viewPath v.known)) ∨
          (∃ path, reached path) ∧ v.known.toList <:+: s.name.toList := by
  have hview : (∃ path, reached path ∧ v.kind = .template ∧ path = Layout.viewPath v.known) ↔
      v.kind = .template ∧ reached (Layout.viewPath v.known) := by
    constructor
    · rintro ⟨path, hreached, hkind, rfl⟩
      exact ⟨hkind, hreached⟩
    · rintro ⟨hkind, hreached⟩
      exact ⟨_, hreached, hkind, rfl⟩
  simp only [Edge.SpeaksFor, mentions_iff_isInfix, and_or_left, exists_or, exists_eq_right,
    exists_and_right, hview]

/-- All route files are marked. -/
theorem marked_of_routes_append_iff {others : List Visit} :
    s ∈ routeVisits p ++ others ∧ s ∈ markedVisits p ∅ (visits p) ↔
      s ∈ routeVisits p ∨ s ∈ others ∧ s ∈ markedVisits p ∅ (visits p) := by
  have hroute : s ∈ routeVisits p → s ∈ markedVisits p ∅ (visits p) := by
    intro h
    have hs : s ∈ visits p := by simp [visits, h]
    rw [routeVisits_eq] at h
    exact mem_markedVisits_of_route hs (kind_of_mem_visitsOf h)
  rw [List.mem_append, or_and_right, and_iff_left_of_imp hroute]

theorem kind_of_mem_controllerVisits (h : v ∈ controllerVisits p) :
    v.kind = .handler ∧ v.known = Path.stem v.path := by
  rw [controllerVisits_eq] at h
  obtain ⟨names, -, rfl⟩ := List.mem_map.mp h
  exact ⟨rfl, rfl⟩

theorem kind_of_mem_templateVisits (h : v ∈ templateVisits p) :
    v.kind = .template ∧ v.known = (Layout.viewName? v.name).getD "" := by
  rw [templateVisits_eq] at h
  obtain ⟨names, -, rfl⟩ := List.mem_map.mp h
  exact ⟨rfl, rfl⟩

theorem controller_marked_iff (h : controllerVisits p = before ++ v :: after) :
    v ∈ markedVisits p ∅ (visits p) ↔
      ∃ s, (s ∈ routeVisits p ∨ s ∈ before ∧ s ∈ markedVisits p ∅ (visits p)) ∧
        (Finds p s (.file v.name) ∨ Finds p s (.file (Path.stem v.path)) ∨
          (∃ path, Finds p s (.file path)) ∧ (Path.stem v.path).toList <:+: s.name.toList) := by
  have hvisits : visits p = (routeVisits p ++ before) ++ v :: (after ++ templateVisits p) := by
    simp [visits, h]
  obtain ⟨hkind, hknown⟩ := kind_of_mem_controllerVisits (p := p) (v := v) (by simp [h])
  have hsource : ∀ s ∈ routeVisits p ++ before, s.kind ≠ .template := by
    intro s hs
    rcases List.mem_append.mp hs with hs | hs
    · rw [routeVisits_eq] at hs
      simp [kind_of_mem_visitsOf hs]
    · have hs : s ∈ controllerVisits p := by simp [h, hs]
      simp [(kind_of_mem_controllerVisits hs).1]
  rw [mem_markedVisits_iff_speaks hvisits, or_iff_right (by simp [hkind])]
  refine exists_congr fun s => ?_
  rw [← and_assoc, ← marked_of_routes_append_iff]
  refine and_congr_right fun hs => ?_
  simp only [reaches_iff_file (hsource s hs.1)]
  rw [exists_speaksFor_iff fun path => Finds p s (.file path), hknown]
  simp [hkind]

theorem template_marked_iff {view : String} (h : templateVisits p = before ++ v :: after)
    (hview : Layout.viewName? v.name = some view) :
    v ∈ markedVisits p ∅ (visits p) ↔
      ∃ s, (s ∈ routeVisits p ∨ (s ∈ controllerVisits p ∧ s ∈ markedVisits p ∅ (visits p)) ∨
          s ∈ before ∧ s ∈ markedVisits p ∅ (visits p)) ∧
        (Reaches p s v.name ∨ Reaches p s (Layout.viewPath view) ∨ Reaches p s view ∨
          (∃ path, Reaches p s path) ∧ view.toList <:+: s.name.toList) := by
  have hvisits : visits p = (routeVisits p ++ (controllerVisits p ++ before)) ++ v :: after := by
    simp [visits, h]
  obtain ⟨hkind, hknown⟩ := kind_of_mem_templateVisits (p := p) (v := v) (by simp [h])
  rw [hview, Option.getD_some] at hknown
  rw [mem_markedVisits_iff_speaks hvisits, or_iff_right (by simp [hkind])]
  refine exists_congr fun s => ?_
  rw [← and_assoc, ← or_and_right, ← List.mem_append, ← marked_of_routes_append_iff]
  refine and_congr_right fun _ => ?_
  rw [exists_speaksFor_iff, hknown]
  simp only [hkind, true_and]
  rw [or_left_comm (a := Reaches p s view)]

/-- What keeps a controller or a view alive in a run from nothing, from the visits that come before
its own. -/
theorem marking_rule (p : Project) (excludes : List String) :
    (run ⟨p, excludes⟩ ∅).events.filter tellsOfVisit =
      (markedVisits p ∅ (visits p)).map (report p) ∧
    (∀ before c after, controllerVisits p = before ++ c :: after →
      (c ∈ markedVisits p ∅ (visits p) ↔
        ∃ s, (s ∈ routeVisits p ∨ s ∈ before ∧ s ∈ markedVisits p ∅ (visits p)) ∧
          (Finds p s (.file c.name) ∨ Finds p s (.file (Path.stem c.path)) ∨
            (∃ path, Finds p s (.file path)) ∧
              (Path.stem c.path).toList <:+: s.name.toList))) ∧
    ∀ before v after, templateVisits p = before ++ v :: after →
      ∃ view, Layout.viewName? v.name = some view ∧
        (v ∈ markedVisits p ∅ (visits p) ↔
          ∃ s, (s ∈ routeVisits p ∨ (s ∈ controllerVisits p ∧ s ∈ markedVisits p ∅ (visits p)) ∨
              s ∈ before ∧ s ∈ markedVisits p ∅ (visits p)) ∧
            (Reaches p s v.name ∨ Reaches p s (Layout.viewPath view) ∨ Reaches p s view ∨
              (∃ path, Reaches p s path) ∧ view.toList <:+: s.name.toList)) := by
  refine ⟨filter_events_run ⟨p, excludes⟩ ∅, fun before c after h => controller_marked_iff h, ?_⟩
  intro before v after h
  have hv : v ∈ templateVisits p := by simp [h]
  rw [templateVisits_eq] at hv
  obtain ⟨names, hnames, rfl⟩ := List.mem_map.mp hv
  obtain ⟨view, hview⟩ := Option.isSome_iff_exists.mp (viewName?_visited hnames)
  exact ⟨view, hview, template_marked_iff h hview⟩

/-- A project whose route file names a controller, which shows a view. -/
def shop : Project where
  tree := .ofEntries
    [(["app"], .folder), (["app", "Http"], .folder), (["app", "Http", "Controllers"], .folder),
      (["app", "Http", "Controllers", "Home.php"], .file (encode "view('home')") false),
      (["resources"], .folder), (["resources", "views"], .folder),
      (["resources", "views", "home.blade.php"], .file [] false),
      (["routes"], .folder),
      (["routes", "web.php"], .file (encode "use App\\Http\\Controllers\\Home;") false)]
    (of_decide_eq_true (by rfl))
  cwd := []
  root := "/"

theorem linkFree_shop : shop.tree.LinkFree := .of_entries (by simp [shop])

def shopName : SourceKind → Bytes
  | .route => "web.php"
  | .handler => "Home.php"
  | .template => "home.blade.php"

theorem visitsOf_shop (kind : SourceKind) :
    visitsOf shop kind = [visitTo shop kind [shopName kind]] := by
  have hroot : shop.tree.resolve shop.cwd shop.root = .ok [] := resolve_top _ _
  have hfolder : shop.tree.lookup? ([] ++ folderNames kind) = some .folder := by
    cases kind <;> decide
  obtain ⟨content, hbelow⟩ : ∃ content, shop.tree.below ([] ++ folderNames kind) =
      [([shopName kind], .file content false)] := by
    cases kind <;> exact ⟨_, rfl⟩
  have hpath : pathFault? (pathBelow shop.root (folderNames kind)) = none ∧
      isListed (pathBelow shop.root (folderNames kind)) [shopName kind] = true ∧
        isVisited kind [shopName kind] = true := by
    cases kind <;> decide
  rw [visitsOf, visitedNames_of_linkFree linkFree_shop hroot hpath.1 hfolder, hbelow]
  simp [hpath]

theorem finds_shop (kind : SourceKind) {text : String} {target : Target}
    (hfile : shop.tree.lookup? (folderNames kind ++ [shopName kind]) =
      some (.file (encode text) false))
    (htarget : ∃ r ∈ extract kind text, r.target = target) :
    Finds shop (visitTo shop kind [shopName kind]) target := by
  have hroot : shop.tree.resolve shop.cwd shop.root = .ok [] := resolve_top _ _
  have hnames : ∀ n ∈ folderNames kind ++ [shopName kind], IsName n := by
    cases kind <;> decide
  have hpath : pathFault? (pathBelow shop.root (folderNames kind ++ [shopName kind])) = none := by
    cases kind <;> decide
  have hentry := (linkFree_shop.entryAt_pathBelow_iff hroot hnames).mpr ⟨hpath, hfile⟩
  exact ⟨text, Project.readSource_eq_ok_iff.mpr ⟨_, _, hentry, decode?_encode text⟩, htarget⟩

theorem marking_rule_shop :
    controllerVisits shop = [] ++ visitTo shop .handler ["Home.php"] :: [] ∧
      templateVisits shop = [] ++ visitTo shop .template ["home.blade.php"] :: [] ∧
      visitTo shop .handler ["Home.php"] ∈ markedVisits shop ∅ (visits shop) ∧
      visitTo shop .template ["home.blade.php"] ∈ markedVisits shop ∅ (visits shop) := by
  have hroute : routeVisits shop = [visitTo shop .route ["web.php"]] := by
    rw [routeVisits_eq]
    exact visitsOf_shop .route
  have hcontroller : controllerVisits shop = [] ++ visitTo shop .handler ["Home.php"] :: [] := by
    rw [controllerVisits_eq]
    exact visitsOf_shop .handler
  have htemplate : templateVisits shop =
      [] ++ visitTo shop .template ["home.blade.php"] :: [] := by
    rw [templateVisits_eq]
    exact visitsOf_shop .template
  have himport : Finds shop (visitTo shop .route ["web.php"])
      (.file "app/Http/Controllers/Home.php") :=
    finds_shop .route rfl (by decide +kernel)
  have hview : Finds shop (visitTo shop .handler ["Home.php"])
      (.file "resources/views/home.blade.php") :=
    finds_shop .handler rfl (by decide +kernel)
  obtain ⟨-, hcontrollers, htemplates⟩ := marking_rule shop []
  have hmarked := (hcontrollers _ _ _ hcontroller).mpr
    ⟨_, .inl (by rw [hroute]; exact List.mem_singleton.mpr rfl), .inl himport⟩
  obtain ⟨view, -, hturn⟩ := htemplates _ _ _ htemplate
  exact ⟨hcontroller, htemplate, hmarked, hturn.mpr
    ⟨_, .inr (.inl ⟨by simp [hcontroller], hmarked⟩), .inl (.inl hview)⟩⟩

end Survey

end UnusedAssets
