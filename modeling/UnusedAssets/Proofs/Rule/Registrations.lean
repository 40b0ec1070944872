import UnusedAssets.Proofs.Pattern.Preference
import UnusedAssets.Proofs.Rule.Basic

/-!
# Routes bound to controllers

A registration binds a route to a controller class. No text that the rule for registrations takes
begins before a registration and ends behind its beginning, so the search comes to every one of them
(`Registration.comesTo`), and there it reads the route and the class (`Registration.match?_text`).
-/

namespace UnusedAssets

open Text CharClass

theorem Rule.shape_of_takes_routeController {w : List Char} {groups : List String}
    (h : routeController.pattern.Takes w groups) : ∃ verb lead route quote gap bracket stem,
      w = "Route::".toList ++ (verb ++ ("(".toList ++ (lead ++ (route ++
        quote :: (",".toList ++ (gap ++ (bracket ++ (stem ++ "Controller".toList)))))))) ∧
      (∀ c ∈ verb, c.isLower) ∧ (∀ c ∈ lead, opening.holds c) ∧
      (∀ c ∈ route, unquoted.holds c) ∧ quotes.holds quote ∧ (∀ c ∈ gap, isBlank c) ∧
      (bracket = ['['] ∨ bracket = []) ∧ ∀ c ∈ stem, classNames.holds c := by
  simp only [routeController, Pattern.Takes, Piece.TakeAll, Piece.Takes, holds_blanks,
    holds_verbs] at h
  obtain ⟨_, _, rfl, rfl, verb, _, rfl, ⟨-, hverb⟩, _, _, rfl, rfl, lead, _, rfl, hlead, _, _, _,
    rfl, ⟨route, _, rfl, ⟨-, hroute⟩, rfl⟩, ⟨_, _, rfl, ⟨quote, rfl, hquote⟩, _, _, rfl, rfl,
    gap, _, rfl, hgap, bracket, _, rfl, hbracket, _, _, _, rfl,
    ⟨stem, _, rfl, ⟨-, hstem⟩, _, _, rfl, rfl, rfl⟩, ⟨rfl, -⟩, -⟩, -⟩ := h
  exact ⟨verb, lead, route, quote, gap, bracket, stem, by simp, hverb, hlead, hroute, hquote, hgap,
    hbracket, hstem⟩

/-- A route bound to a controller, as it is written in a route file. The verb is in small letters; the
route begins with neither a blank nor a comma and holds no quotes; the class ends in `Controller`,
with something before it. -/
structure Registration where
  verb : String
  openQuote : Char
  route : String
  closeQuote : Char
  gap : String
  inArray : Bool
  className : String
  verb_ne : verb ≠ ""
  verb_lower : ∀ c ∈ verb.toList, c.isLower
  openQuote_quote : openQuote = '\'' ∨ openQuote = '"'
  route_ne : route ≠ ""
  route_unquoted : ∀ c ∈ route.toList, ¬ (c = '\'' ∨ c = '"')
  route_first : ∀ c ∈ route.toList.head?, isBlank c = false ∧ c ≠ ','
  closeQuote_quote : closeQuote = '\'' ∨ closeQuote = '"'
  gap_blank : ∀ c ∈ gap.toList, isBlank c
  class_name : ∀ c ∈ className.toList, c.isAlphanum ∨ c = '\\'
  class_controller : ∃ stem, stem ≠ "" ∧ className = stem ++ "Controller"

namespace Registration

def text (r : Registration) : String :=
  "Route::" ++ r.verb ++ "(" ++ r.openQuote.toString ++ r.route ++ r.closeQuote.toString ++ "," ++
    r.gap ++ (if r.inArray then "[" else "") ++ r.className ++ "::class"

variable (r : Registration)

def bracket : List Char := if r.inArray then ['['] else []

theorem toList_text (after : List Char) : r.text.toList ++ after =
    "Route::".toList ++ (r.verb.toList ++ ("(".toList ++ ([r.openQuote] ++ (r.route.toList ++
      r.closeQuote :: (",".toList ++ (r.gap.toList ++ (r.bracket ++
        (r.className.toList ++ ("::class".toList ++ after))))))))) := by
  have hbracket : (if r.inArray then "[" else "").toList = r.bracket := by
    unfold bracket
    split <;> rfl
  unfold text
  simp only [String.toList_append, hbracket, Char.toString_eq_singleton,
    String.toList_singleton, List.append_assoc, List.cons_append, List.nil_append]

/-! ### What is read -/

theorem classNames_holds : ∀ c ∈ r.className.toList, classNames.holds c = true :=
  fun c hc => holds_classNames_iff.mpr (r.class_name c hc)

theorem match?_className (after : List Char) :
    Pattern.match? [.group [.some classNames, .literal "Controller"]]
      (r.className.toList ++ ("::class".toList ++ after)) =
        some ([r.className], "::class".toList ++ after) := by
  have hname := r.classNames_holds
  obtain ⟨stem, hne, hclass⟩ := r.class_controller
  rw [hclass, String.toList_append, List.forall_mem_append] at hname
  have hend : ∀ c ∈ ("::class".toList ++ after).head?, classNames.holds c = false := by
    simpa using (by decide : classNames.holds ':' = false)
  -- behind a longer run of letters too few of them are left for the literal
  have hlast : ∀ x y, x ≠ [] → (∀ c ∈ x, classNames.holds c = true) →
      "Controller".toList ++ ("::class".toList ++ after) = x ++ y →
      after? "Controller".toList y = none := by
    intro x y hx hrun hsplit
    rw [Option.eq_none_iff_forall_ne_some]
    intro z hz
    rw [after?_eq_some_iff.mp hz, ← List.append_assoc x] at hsplit
    have hbegins := prefix_of_run hsplit.symm (List.forall_mem_append.mpr ⟨hrun, hname.2⟩) hend
    have hlen := hbegins.length_le
    have hpos := List.length_pos_of_ne_nil hx
    rw [List.length_append] at hlen
    omega
  have hmatch : Pattern.match? [.group [.some classNames, .literal "Controller"]]
      (stem.toList ++ ("Controller".toList ++ ("::class".toList ++ after))) =
        some ([String.ofList (stem.toList ++ "Controller".toList)], "::class".toList ++ after) :=
    Pattern.match?_group_run_literal (by simpa using hne) hname.1 hlast rfl
  rw [hclass, String.toList_append, List.append_assoc, hmatch, ← String.toList_append,
    String.ofList_toList]

theorem head?_className (rest : List Char) :
    ∀ c ∈ (r.className.toList ++ rest).head?, classNames.holds c = true := by
  have hne : r.className.toList ≠ [] := by
    obtain ⟨stem, -, hclass⟩ := r.class_controller
    simp [hclass]
  intro c hc
  rw [List.head?_append_of_ne_nil _ hne] at hc
  exact r.classNames_holds c (List.mem_of_mem_head? hc)

theorem head?_bracket (rest : List Char) :
    ∀ c ∈ (r.bracket ++ (r.className.toList ++ rest)).head?, isBlank c = false := by
  intro c hc
  unfold bracket at hc
  split at hc
  · obtain rfl : '[' = c := by simpa using hc
    decide
  · exact isBlank_eq_false_of_classNames (r.head?_className rest c hc)

theorem match?_bracket (after : List Char) :
    Pattern.match? [.piece (.optional "["), .group [.some classNames, .literal "Controller"]]
      (r.bracket ++ (r.className.toList ++ ("::class".toList ++ after))) =
        some ([r.className], "::class".toList ++ after) := by
  have hclass := r.match?_className after
  unfold bracket
  split
  · exact Pattern.match?_optional hclass
  · have hnone : after? "[".toList (r.className.toList ++ ("::class".toList ++ after)) = none := by
      rw [Option.eq_none_iff_forall_ne_some]
      intro z hz
      have hbracket := r.head?_className ("::class".toList ++ after) '['
      rw [after?_eq_some_iff.mp hz] at hbracket
      exact absurd (hbracket rfl) (by decide)
    rw [List.nil_append, Pattern.match?_optional_of_not hnone, hclass]

theorem route_holds : ∀ c ∈ r.route.toList, unquoted.holds c = true :=
  fun c hc => holds_unquoted_iff.mpr (r.route_unquoted c hc)

theorem openQuote_holds : quotes.holds r.openQuote = true :=
  holds_quotes_iff.mpr r.openQuote_quote

theorem closeQuote_holds : quotes.holds r.closeQuote = true :=
  holds_quotes_iff.mpr r.closeQuote_quote

theorem head?_route (rest : List Char) :
    ∀ c ∈ (r.route.toList ++ rest).head?, opening.holds c = false ∧ c ≠ ',' := by
  intro c hc
  rw [List.head?_append_of_ne_nil _ (by simpa using r.route_ne)] at hc
  obtain ⟨hblank, hcomma⟩ := r.route_first c hc
  refine ⟨?_, hcomma⟩
  rw [Bool.eq_false_iff, Ne, holds_opening_iff, hblank, not_or]
  exact ⟨by decide, r.route_unquoted c (List.mem_of_mem_head? hc)⟩

theorem match?_text (after : List Char) :
    Rule.routeController.pattern.match? (r.text.toList ++ after) =
      some ([r.route, r.className], "::class".toList ++ after) := by
  have hgap := Pattern.match?_many (k := blanks) (by simpa only [holds_blanks] using r.gap_blank)
    (by simpa only [holds_blanks] using r.head?_bracket _) (r.match?_bracket after)
  have hcomma := (Pattern.match?_literal "," _ _).trans hgap
  have hclosing := (Pattern.match?_single r.closeQuote_holds _ _).trans hcomma
  have hroute := Pattern.match?_group_run (k := unquoted) (by simpa using r.route_ne)
    r.route_holds (by simpa using not_unquoted_of_quotes r.closeQuote_holds) hclosing
  have hlead : ∀ c ∈ [r.openQuote], opening.holds c = true := by
    simpa [holds_opening_iff] using .inr r.openQuote_quote
  have hopening := Pattern.match?_many hlead (fun c hc => (r.head?_route _ c hc).1) hroute
  have hparen := (Pattern.match?_literal "(" _ _).trans hopening
  have hlower : ∀ c ∈ r.verb.toList, verbs.holds c = true := by
    simpa only [holds_verbs] using r.verb_lower
  have hverb := Pattern.match?_some (by simpa using r.verb_ne) hlower (by simp [holds_verbs]) hparen
  rw [String.ofList_toList] at hverb
  rw [r.toList_text, ← hverb]
  exact Pattern.match?_literal "Route::" _ _

/-! ### What stands before it -/

theorem first_toList : "Route::".toList = 'R' :: "oute::".toList := rfl

theorem not_closed_by_comma {run rest after : List Char} {quote : Char}
    (hrun : ∀ c ∈ run, unquoted.holds c = true) (hquote : quotes.holds quote = true) :
    r.text.toList ++ after ≠ run ++ quote :: ',' :: rest := by
  intro h
  have hcall : ∀ c ∈ "Route::".toList ++ (r.verb.toList ++ "(".toList), unquoted.holds c = true := by
    have hverb : ∀ c ∈ r.verb.toList, unquoted.holds c = true := by
      intro c hc
      rw [holds_unquoted_iff]
      rintro (rfl | rfl)
      · exact absurd (r.verb_lower _ hc) (by decide)
      · exact absurd (r.verb_lower _ hc) (by decide)
    exact List.forall_mem_append.mpr ⟨List.all_eq_true.mp (by decide),
      List.forall_mem_append.mpr ⟨hverb, List.all_eq_true.mp (by decide)⟩⟩
  have hsame : "Route::".toList ++ (r.verb.toList ++ "(".toList) ++ r.openQuote :: (r.route.toList ++
      r.closeQuote :: (",".toList ++ (r.gap.toList ++ (r.bracket ++
        (r.className.toList ++ ("::class".toList ++ after)))))) = run ++ quote :: ',' :: rest := by
    rw [← h, r.toList_text]
    simp
  obtain ⟨-, -, hroute⟩ := run_cons_inj hsame hcall (not_unquoted_of_quotes r.openQuote_holds) hrun
    (not_unquoted_of_quotes hquote)
  have hfirst := r.head?_route (r.closeQuote :: (",".toList ++ (r.gap.toList ++ (r.bracket ++
    (r.className.toList ++ ("::class".toList ++ after)))))) ','
  rw [hroute] at hfirst
  exact (hfirst rfl).2 rfl

theorem not_mem_of_classNames {x rest after : List Char} (hx : ∀ c ∈ x, classNames.holds c = true)
    (h : r.text.toList ++ after = x ++ rest) : 'r' ∉ x := by
  have hbegins : x <+: "Route".toList := by
    rw [r.toList_text] at h
    exact prefix_of_run (h.symm.trans (List.append_assoc "Route".toList "::".toList _)) hx
      (by simpa using (by decide : classNames.holds ':' = false))
  exact fun hmem => absurd (hbegins.mem hmem) (by decide)

theorem not_takes_across {before x rest after : List Char} {groups : List String}
    (hbefore : before ≠ []) (hx : x ≠ []) (hsplit : r.text.toList ++ after = x ++ rest) :
    ¬ Rule.routeController.pattern.Takes (before ++ x) groups := by
  intro htakes
  obtain ⟨a, x, rfl⟩ := List.exists_cons_of_ne_nil hx
  obtain ⟨b, before, rfl⟩ := List.exists_cons_of_ne_nil hbefore
  obtain rfl : a = 'R' := by
    rw [r.toList_text, first_toList, List.cons_append] at hsplit
    exact (List.cons.inj hsplit).1.symm
  obtain ⟨verb, lead, route, quote, gap, bracket, stem, hw, hverb, hlead, hroute, hquote, hgap,
    hbracket, hstem⟩ := Rule.shape_of_takes_routeController htakes
  have hcall : 'R' ∉ "oute::".toList ++ (verb ++ ("(".toList ++ lead)) := by
    simp only [List.mem_append, not_or]
    exact ⟨by decide, fun h => absurd (hverb _ h) (by decide), by decide,
      fun h => absurd (hlead _ h) (by decide)⟩
  have hbehind : 'R' ∉ quote :: (",".toList ++ (gap ++ bracket)) := by
    simp only [List.mem_cons, List.mem_append, not_or]
    refine ⟨?_, by decide, fun h => absurd (hgap _ h) (by decide), ?_⟩
    · rintro rfl
      exact absurd hquote (by decide)
    · rcases hbracket with rfl | rfl
      · decide
      · simp
  have hinside : before ++ 'R' :: x = ("oute::".toList ++ (verb ++ ("(".toList ++ lead))) ++
      (route ++ quote :: (",".toList ++ (gap ++ (bracket ++ (stem ++ "Controller".toList))))) := by
    rw [first_toList, List.cons_append, List.cons_append] at hw
    rw [(List.cons.inj hw).2]
    simp only [List.append_assoc]
  -- so the registration begins either in the route that was taken or in the class
  obtain ⟨l, -, hl⟩ := exists_of_begins_behind hinside hcall
  rcases List.append_eq_append_iff.mp hl with ⟨l, -, hl⟩ | ⟨l, hroutes, hl⟩
  · have hclass : l ++ 'R' :: x =
        quote :: (",".toList ++ (gap ++ bracket)) ++ (stem ++ "Controller".toList) := by
      rw [← hl]
      simp
    obtain ⟨l, -, hl⟩ := exists_of_begins_behind hclass hbehind
    have hname : ∀ c ∈ 'R' :: x, classNames.holds c = true := by
      intro c hc
      have hmem : c ∈ stem ++ "Controller".toList := hl ▸ List.mem_append_right l hc
      exact List.forall_mem_append.mpr ⟨hstem, List.all_eq_true.mp (by decide)⟩ c hmem
    have hlast : ('R' :: x).getLast? = some 'r' := by
      have := congrArg List.getLast? hl
      simpa [List.getLast?_append] using this.symm
    exact r.not_mem_of_classNames hname hsplit (List.mem_of_getLast? hlast)
  · have hcomma : r.text.toList ++ after =
        l ++ quote :: ',' :: (gap ++ (bracket ++ (stem ++ "Controller".toList)) ++ rest) := by
      rw [hsplit, hl]
      simp
    exact r.not_closed_by_comma (fun c hc => hroute c (hroutes ▸ List.mem_append_right _ hc)) hquote
      hcomma

theorem comesTo (before after : List Char) :
    Rule.routeController.pattern.ComesTo (before ++ (r.text.toList ++ after))
      (r.text.toList ++ after) :=
  Pattern.comesTo_append fun _ hv hx hsplit => r.not_takes_across hv hx hsplit

end Registration

theorem extract_of_registration (r : Registration) (before after : String) :
    .controller r.route r.className ∈ extract .route (before ++ r.text ++ after) := by
  have hcontent : (before ++ r.text ++ after).toList =
      before.toList ++ (r.text.toList ++ after.toList) := by simp
  have hcomes := r.comesTo before.toList after.toList
  rw [← hcontent] at hcomes
  have hfind : .controller r.route r.className ∈
      Rule.routeController.find (before ++ r.text ++ after) :=
    Rule.mem_find_of_comesTo hcomes (Pattern.groups?_of_match? (r.match?_text after.toList))
      List.mem_cons_self
  exact List.mem_flatMap.mpr ⟨Rule.routeController, by simp [Rule.table, Rule.handlerRules], hfind⟩

def usersRegistration : Registration where
  verb := "resource"
  openQuote := '\''
  route := "/users"
  closeQuote := '\''
  gap := "\n    "
  inArray := true
  className := "Admin\\UserController"
  verb_ne := by decide
  verb_lower := List.all_eq_true.mp (by decide)
  openQuote_quote := by decide
  route_ne := by decide
  route_unquoted c hc := holds_unquoted_iff.mp (List.all_eq_true.mp (by decide) c hc)
  route_first := by simpa using (by decide : isBlank '/' = false)
  closeQuote_quote := by decide
  gap_blank := List.all_eq_true.mp (by decide)
  class_name c hc := holds_classNames_iff.mp (List.all_eq_true.mp (by decide) c hc)
  class_controller := ⟨"Admin\\User", by decide, by decide⟩

theorem extract_of_usersRegistration :
    .controller "/users" "Admin\\UserController" ∈
      extract .route ("Route::get('/', HomeController" ++ usersRegistration.text ++ ", 'index']);") :=
  extract_of_registration usersRegistration _ _

end UnusedAssets
