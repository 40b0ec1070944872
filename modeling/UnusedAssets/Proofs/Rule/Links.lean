import UnusedAssets.Proofs.Pattern.Preference
import UnusedAssets.Proofs.Rule.Basic

/-!
# Links to routes

The rule for links reads an attribute whose value may be the path of a route (`match?_text`). It takes
one slash off the value, unless nothing is left then, and only afterwards looks at how the path begins.
So a value is left out if it leads to another host or to a place on the same page, but also if it would
do so without its slash, and one with two slashes is not left out (`routePaths_of_extract`).
-/

namespace UnusedAssets

open Text CharClass

structure LinkAttribute where
  name : String
  openQuote : Char
  value : String
  closeQuote : Char
  name_mem : name ∈ ["action", "href"]
  openQuote_mem : openQuote = '\'' ∨ openQuote = '"'
  value_ne : value ≠ ""
  value_plain : ∀ c ∈ value.toList, ¬ (c = '\'' ∨ c = '"')
  closeQuote_mem : closeQuote = '\'' ∨ closeQuote = '"'

namespace LinkAttribute

def text (a : LinkAttribute) : String :=
  a.name ++ "=" ++ a.openQuote.toString ++ a.value ++ a.closeQuote.toString

/-- The value without one slash in front, if anything is left then. -/
def path (a : LinkAttribute) : String :=
  match dropLead? a.value "/" with
  | none => a.value
  | some rest => if rest = "" then a.value else rest

def avoids (a : LinkAttribute) (leads : List String) : Bool :=
  leads.all fun lead => !startsWith a.value lead

variable (a : LinkAttribute)

theorem toList_text (rest : List Char) : a.text.toList ++ rest = a.name.toList ++ ("=".toList ++
    (a.openQuote :: (a.value.toList ++ a.closeQuote :: rest))) := by
  simp [text]

theorem openQuote_holds : quotes.holds a.openQuote = true := holds_quotes_iff.mpr a.openQuote_mem

theorem closeQuote_holds : quotes.holds a.closeQuote = true := holds_quotes_iff.mpr a.closeQuote_mem

theorem value_holds : ∀ c ∈ a.value.toList, unquoted.holds c = true :=
  fun c hc => holds_unquoted_iff.mpr (a.value_plain c hc)

def pathAndQuote : Pattern := [.group [.some unquoted], .piece (.single quotes)]

variable {a}

theorem match?_pathAndQuote {run : List Char} (hne : run ≠ [])
    (hrun : ∀ c ∈ run, unquoted.holds c = true) (rest : List Char) :
    pathAndQuote.match? (run ++ a.closeQuote :: rest) = some ([String.ofList run], rest) := by
  have hend : Pattern.match? [.piece (.single quotes)] (a.closeQuote :: rest) = some ([], rest) :=
    Pattern.match?_single a.closeQuote_holds [] rest
  exact Pattern.match?_group_run hne hrun
    (by simpa using not_unquoted_of_quotes a.closeQuote_holds) hend

/-- Either the value has no slash in front, or it has one and goes on, or it is nothing but a slash. -/
theorem path_cases (a : LinkAttribute) :
    (∃ c cs, a.value.toList = c :: cs ∧ c ≠ '/' ∧ a.path = a.value) ∨
      (∃ rest, rest ≠ "" ∧ a.value = "/" ++ rest ∧ a.path = rest) ∨
        a.value = "/" ∧ a.path = "/" := by
  unfold path
  cases hdrop : dropLead? a.value "/" with
  | none =>
    obtain ⟨c, cs, hvalue⟩ := List.exists_cons_of_ne_nil fun hnil =>
      a.value_ne (String.toList_eq_nil_iff.mp hnil)
    refine .inl ⟨c, cs, hvalue, ?_, rfl⟩
    rintro rfl
    have hsome : dropLead? a.value "/" = some (String.ofList cs) :=
      dropLead?_eq_some_iff.mpr (by rw [← String.toList_inj, hvalue]; simp)
    rw [hdrop] at hsome
    exact absurd hsome (by simp)
  | some rest =>
    have hvalue : a.value = "/" ++ rest := dropLead?_eq_some_iff.mp hdrop
    by_cases hrest : rest = ""
    · subst hrest
      exact .inr (.inr ⟨hvalue, hvalue⟩)
    · exact .inr (.inl ⟨rest, hrest, hvalue, if_neg hrest⟩)

theorem match?_value (rest : List Char) :
    Pattern.match? (.piece (.optional "/") :: pathAndQuote) (a.value.toList ++ a.closeQuote :: rest) =
      some ([a.path], rest) := by
  have hrun := a.value_holds
  have hvalue : pathAndQuote.match? (a.value.toList ++ a.closeQuote :: rest) =
      some ([a.value], rest) := by
    rw [match?_pathAndQuote (by simpa using a.value_ne) hrun, String.ofList_toList]
  rcases a.path_cases with ⟨c, cs, hlist, hc, hpath⟩ | ⟨more, hne, hsplit, hpath⟩ | ⟨hslash, hpath⟩
  · have hnot : after? "/".toList (a.value.toList ++ a.closeQuote :: rest) = none := by
      simp [hlist, after?, hc.symm]
    rw [Pattern.match?_optional_of_not hnot, hvalue, hpath]
  · have hmore : pathAndQuote.match? (more.toList ++ a.closeQuote :: rest) = some ([more], rest) := by
      rw [hsplit, String.toList_append] at hrun
      rw [match?_pathAndQuote (by simpa using hne) (List.forall_mem_append.mp hrun).2,
        String.ofList_toList]
    rw [hsplit, String.toList_append, List.append_assoc, Pattern.match?_optional hmore, hpath]
  · -- behind the slash no path is left, so the slash is given back
    have hnone : pathAndQuote.match? (a.closeQuote :: rest) = none :=
      Pattern.match?_group_run_of_not (not_unquoted_of_quotes a.closeQuote_holds)
    rw [hslash] at hvalue ⊢
    rw [Pattern.match?_optional_of_none hnone, hvalue, hpath]

theorem match?_text (a : LinkAttribute) (rest : List Char) :
    Rule.routeLink.pattern.match? (a.text.toList ++ rest) = some ([a.path], rest) := by
  have hname : (Piece.choice ["action", "href"]).rests (a.name.toList ++ ("=".toList ++
      (a.openQuote :: (a.value.toList ++ a.closeQuote :: rest)))) = ["=".toList ++
        (a.openQuote :: (a.value.toList ++ a.closeQuote :: rest))] := by
    have hmem := a.name_mem
    simp only [List.mem_cons, List.not_mem_nil, or_false] at hmem
    rcases hmem with hmem | hmem
    · rw [hmem]
      rfl
    · rw [hmem]
      rfl
  rw [a.toList_text, Rule.routeLink, Pattern.match?, hname, List.findSome?_singleton,
    Pattern.match?_literal, Pattern.match?_single a.openQuote_holds]
  exact match?_value rest

theorem exists_of_takes {w : List Char} {groups : List String}
    (h : Rule.routeLink.pattern.Takes w groups) : ∃ a : LinkAttribute, w = a.text.toList := by
  simp only [Rule.routeLink, Pattern.Takes, Piece.TakeAll, Piece.Takes] at h
  obtain ⟨_, _, rfl, ⟨name, hname, rfl⟩, _, _, rfl, rfl, _, _, rfl, ⟨openQuote, rfl, hopen⟩,
    slash, _, rfl, hslash, _, _, _, rfl, ⟨run, _, rfl, ⟨hne, hrun⟩, rfl⟩,
    ⟨_, _, rfl, ⟨closeQuote, rfl, hclose⟩, rfl, rfl⟩, rfl⟩ := h
  have hvalue : ∀ c ∈ slash ++ run, unquoted.holds c = true := by
    refine List.forall_mem_append.mpr ⟨?_, hrun⟩
    rcases hslash with rfl | rfl
    · exact List.all_eq_true.mp (by decide)
    · exact fun c hc => absurd hc List.not_mem_nil
  refine ⟨{
    name := name
    openQuote := openQuote
    value := String.ofList (slash ++ run)
    closeQuote := closeQuote
    name_mem := hname
    openQuote_mem := holds_quotes_iff.mp hopen
    value_ne := by simp [hne]
    value_plain := fun c hc => holds_unquoted_iff.mp (hvalue c (by simpa using hc))
    closeQuote_mem := holds_quotes_iff.mp hclose }, ?_⟩
  simp [text]

theorem exists_of_match? {cs : List Char} {m : List String × List Char}
    (h : Rule.routeLink.pattern.match? cs = some m) :
    ∃ a : LinkAttribute, cs = a.text.toList ++ m.2 ∧ m.1 = [a.path] := by
  obtain ⟨w, rfl, htakes⟩ := Pattern.takes_of_match? h
  obtain ⟨a, rfl⟩ := exists_of_takes htakes
  refine ⟨a, rfl, ?_⟩
  rw [a.match?_text] at h
  exact (congrArg Prod.fst (Option.some.inj h)).symm

/-! ### What the rule records -/

/-- The rule looks at how the path begins, which is how the value begins or goes on behind a slash. -/
theorem references_path (a : LinkAttribute) : Rule.routeLink.references [a.path] =
    if a.avoids ["http", "#", "/http", "/#"] then [.routePath a.path] else [] := by
  have hpath : (startsWith a.path "http" || startsWith a.path "#") =
      !a.avoids ["http", "#", "/http", "/#"] := by
    rcases a.path_cases with ⟨c, cs, hlist, hc, hpath⟩ | ⟨more, -, hvalue, hpath⟩ | ⟨hvalue, hpath⟩
    · have hslash : ('/' == c) = false := by simpa using hc.symm
      rw [hpath]
      simp [avoids, startsWith, hlist, List.isPrefixOf, hslash]
    · rw [hpath]
      simp [avoids, startsWith, hvalue, List.isPrefixOf]
    · rw [hpath]
      simp [avoids, startsWith, hvalue, List.isPrefixOf]
  have hrefs : Rule.routeLink.references [a.path] =
      if startsWith a.path "http" || startsWith a.path "#" then [] else [.routePath a.path] := rfl
  rw [hrefs, hpath]
  cases a.avoids ["http", "#", "/http", "/#"] <;> rfl

/-- The value itself tells the same, unless behind a slash it goes on with another one or with what
leads elsewhere. -/
theorem avoids_eq_iff (a : LinkAttribute) :
    a.avoids ["http", "#", "/http", "/#"] = a.avoids ["http", "//", "#"] ↔
      a.avoids ["//", "/http", "/#"] = true := by
  obtain ⟨c, cs, hlist⟩ := List.exists_cons_of_ne_nil fun hnil =>
    a.value_ne (String.toList_eq_nil_iff.mp hnil)
  by_cases hc : c = '/'
  · subst hc
    -- what stands behind the slash begins with at most one of these
    have hone : ['/'].isPrefixOf cs = true →
        ['h', 't', 't', 'p'].isPrefixOf cs = false ∧ ['#'].isPrefixOf cs = false := by
      cases cs with
      | nil => simp
      | cons d cs =>
        intro hd
        obtain rfl : '/' = d := by simpa [List.isPrefixOf] using hd
        simp [List.isPrefixOf]
    cases hsecond : ['/'].isPrefixOf cs with
    | true =>
      obtain ⟨hhttp, hplace⟩ := hone hsecond
      simp [avoids, startsWith, hlist, List.isPrefixOf, hsecond, hhttp, hplace]
    | false => simp [avoids, startsWith, hlist, List.isPrefixOf, hsecond]
  · have hslash : ('/' == c) = false := by simpa using Ne.symm hc
    simp [avoids, startsWith, hlist, List.isPrefixOf, hslash]

end LinkAttribute

def Reference.isRoutePath : Reference → Bool
  | .routePath _ => true
  | _ => false

namespace Rule

theorem not_isRoutePath_ofGroup {make : String → Reference}
    (h : ∀ s, (make s).isRoutePath = false) {groups : List String} {ref : Reference}
    (href : ref ∈ ofGroup make groups) : ref.isRoutePath = false := by
  unfold ofGroup at href
  split at href
  · rw [List.mem_singleton.mp href, h]
  · exact absurd href List.not_mem_nil

def otherTemplateRules : List Rule :=
  [structuralDirective, componentTag, assetAttribute, bundlerList, bundlerSingle]

theorem not_isRoutePath_of_otherTemplateRules {r : Rule} (hr : r ∈ otherTemplateRules)
    {groups : List String} {ref : Reference} (href : ref ∈ r.references groups) :
    ref.isRoutePath = false := by
  simp only [otherTemplateRules, List.mem_cons, List.not_mem_nil, or_false] at hr
  rcases hr with rfl | rfl | rfl | rfl | rfl
  · simp only [structuralDirective] at href
    split at href
    · split at href
      · obtain rfl := List.mem_singleton.mp href
        rfl
      · exact absurd href List.not_mem_nil
    · exact absurd href List.not_mem_nil
  · exact not_isRoutePath_ofGroup (fun _ => rfl) href
  · simp only [assetAttribute] at href
    split at href
    · split at href
      · exact absurd href List.not_mem_nil
      · obtain rfl := List.mem_singleton.mp href
        rfl
    · exact absurd href List.not_mem_nil
  · simp only [bundlerList] at href
    split at href
    · obtain ⟨entry, -, href⟩ := List.mem_flatMap.mp href
      exact not_isRoutePath_ofGroup (fun _ => rfl) href
    · exact absurd href List.not_mem_nil
  · exact not_isRoutePath_ofGroup (fun _ => rfl) href

theorem filter_extract_template (content : String) :
    (extract .template content).filter (·.isRoutePath) =
      (routeLink.find content).filter (·.isRoutePath) := by
  have hrules : Rule.table .template = otherTemplateRules ++ [routeLink] := rfl
  have hothers : (otherTemplateRules.flatMap (·.find content)).filter (·.isRoutePath) = [] := by
    refine List.filter_eq_nil_iff.mpr fun ref href => ?_
    obtain ⟨r, hr, hfound⟩ := List.mem_flatMap.mp href
    obtain ⟨groups, -, hgroups⟩ := List.mem_flatMap.mp hfound
    simp [not_isRoutePath_of_otherTemplateRules hr hgroups]
  rw [extract, hrules, List.flatMap_append, List.filter_append, hothers, List.nil_append,
    List.flatMap_singleton]

theorem find_of_links {content : String} {links : List LinkAttribute}
    (h : routeLink.pattern.matched content.toList = links.map fun a => (a.text, [a.path])) :
    routeLink.find content =
      (links.filter (·.avoids ["http", "#", "/http", "/#"])).map fun a => .routePath a.path := by
  rw [find, Pattern.findAll_eq_map_matched, h, List.map_map, List.flatMap_map]
  simp only [Function.comp_apply, LinkAttribute.references_path]
  exact flatMap_ite_singleton _ _ links

end Rule

/-- The links to routes in a view are those of the attributes that the rule for links meets, in order,
whose values begin neither with what leads elsewhere nor with a slash and then that. That is what the
values themselves tell, except for those with two slashes in front and those that lead elsewhere only
behind their slash. -/
theorem routePaths_of_extract (content : String) : ∃ links : List LinkAttribute,
    (Rule.routeLink.pattern.matched content.toList).map (·.1) = links.map (·.text) ∧
      (extract .template content).filter (·.isRoutePath) =
        (links.filter (·.avoids ["http", "#", "/http", "/#"])).map (fun a => .routePath a.path) ∧
      ∀ a ∈ links, a.avoids ["http", "#", "/http", "/#"] = a.avoids ["http", "//", "#"] ↔
        a.avoids ["//", "/http", "/#"] = true := by
  obtain ⟨links, hlinks⟩ := Pattern.exists_matched LinkAttribute.exists_of_match? content.toList
  refine ⟨links, by simp [hlinks], ?_, fun a _ => a.avoids_eq_iff⟩
  rw [Rule.filter_extract_template, Rule.find_of_links hlinks, List.filter_eq_self]
  intro ref href
  obtain ⟨a, -, rfl⟩ := List.mem_map.mp href
  rfl

/-- A value with two slashes leads to another host and is recorded all the same, and a route of the
project is left out for how it goes on behind its slash. -/
theorem links_judged_without_slash :
    .routePath "/cdn.example.com/about" ∈ extract .template "<a href='//cdn.example.com/about'>" ∧
      .routePath "http-docs" ∉ extract .template "<a href='/http-docs'>" := by
  decide +kernel

end UnusedAssets
