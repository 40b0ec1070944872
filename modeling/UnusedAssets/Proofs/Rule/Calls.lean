import UnusedAssets.Proofs.Pattern.Preference
import UnusedAssets.Proofs.Rule.Basic
import UnusedAssets.Text.Letter

/-!
# Calls with a literal argument

The rules for view calls and for structural directives look for a word with an argument in
parentheses, which goes on to the next quote or closing parenthesis. A call that is not finished
(`OpenCall`) therefore takes up the beginning of the next one. The search comes to a literal call
exactly if it comes to no such call right before (`LooksForCalls.comesTo_iff`), and there it reads the
name (`LooksForCalls.groups?_literalCall`).
-/

namespace UnusedAssets

open Text CharClass

theorem Text.inRanges_eq_false {ranges others : List (Nat × Nat)} {c : Char}
    (hapart : (ranges.all fun r => others.all fun s => r.2 < s.1 || s.2 < r.1) = true)
    (h : inRanges ranges c = true) : inRanges others c = false := by
  obtain ⟨r, hr, hc⟩ := List.any_eq_true.mp h
  rw [Bool.and_eq_true, decide_eq_true_eq, decide_eq_true_eq] at hc
  refine List.any_eq_false.mpr fun s hs => ?_
  have hrs := List.all_eq_true.mp (List.all_eq_true.mp hapart r hr) s hs
  rw [Bool.or_eq_true, decide_eq_true_eq, decide_eq_true_eq] at hrs
  rw [Bool.and_eq_true, decide_eq_true_eq, decide_eq_true_eq]
  omega

theorem Text.plain_of_isLetterOrNumber {c : Char} (h : isLetterOrNumber c = true) :
    isBlank c = false ∧ ¬ (c = '\'' ∨ c = '"' ∨ c = ')') := by
  have hranges : inRanges (letterRanges ++ numberRanges) c = true := by
    rw [inRanges, List.any_append]
    exact h
  have hblank : inRanges blankRanges c = false :=
    inRanges_eq_false (by decide +kernel) hranges
  have hmarks : inRanges [(0x22, 0x22), (0x27, 0x27), (0x29, 0x29)] c = false :=
    inRanges_eq_false (by decide +kernel) hranges
  refine ⟨hblank, ?_⟩
  rintro (rfl | rfl | rfl)
  · exact absurd hmarks (by decide)
  · exact absurd hmarks (by decide)
  · exact absurd hmarks (by decide)

namespace Rule

def argument : Pattern :=
  [.piece (.many blanks), .piece (.literal "("), .piece (.many opening), .group [.some arguments],
    .piece (.many opening)]

/-- A call of one of these words that is not finished: behind the parenthesis stand blanks and quotes,
and then neither a quote nor a closing parenthesis. -/
def OpenCall (words : List String) (text : List Char) : Prop :=
  ∃ word ∈ words, ∃ gap lead inside,
    text = word.toList ++ (gap ++ '(' :: (lead ++ inside)) ∧ (∀ c ∈ gap, isBlank c) ∧
    (∀ c ∈ lead, isBlank c ∨ c = '\'' ∨ c = '"') ∧
    ∀ c ∈ inside, ¬ (c = '\'' ∨ c = '"' ∨ c = ')')

theorem match?_argument {gap lead inside trail rest : List Char} (hgap : ∀ c ∈ gap, isBlank c)
    (hlead : ∀ c ∈ lead, opening.holds c) (hne : inside ≠ []) (hinside : ∀ c ∈ inside, arguments.holds c)
    (hfirst : ∀ c ∈ inside.head?, opening.holds c = false) (htrail : ∀ c ∈ trail, opening.holds c)
    (hend : ∀ c ∈ (trail ++ rest).head?, arguments.holds c = false)
    (hrest : ∀ c ∈ rest.head?, opening.holds c = false) :
    argument.match? (gap ++ '(' :: (lead ++ (inside ++ (trail ++ rest)))) =
      some ([String.ofList inside], rest) := by
  have htail : Pattern.match? [.piece (.many opening)] (trail ++ rest) = some ([], rest) :=
    Pattern.match?_many htrail hrest rfl
  have hgroup := Pattern.match?_group_run hne hinside hend htail
  have hlead := Pattern.match?_many hlead (by rwa [List.head?_append_of_ne_nil _ hne]) hgroup
  have hparen := (Pattern.match?_literal "(" _ _).trans hlead
  exact Pattern.match?_many (by simpa only [holds_blanks] using hgap)
    (by simpa [holds_blanks] using (by decide : isBlank '(' = false)) hparen

theorem shape_of_takes_argument {w : List Char} {groups : List String}
    (h : argument.Takes w groups) : ∃ gap lead inside trail,
      w = gap ++ '(' :: (lead ++ (inside ++ trail)) ∧ (∀ c ∈ gap, isBlank c) ∧
      (∀ c ∈ lead, opening.holds c) ∧ (∀ c ∈ inside, arguments.holds c) ∧
      ∀ c ∈ trail, opening.holds c := by
  simp only [argument, Pattern.Takes, Piece.TakeAll, Piece.Takes, holds_blanks] at h
  obtain ⟨gap, _, rfl, hgap, _, _, rfl, rfl, lead, _, rfl, hlead, _, _, _, rfl,
    ⟨inside, _, rfl, ⟨-, hinside⟩, rfl⟩, ⟨trail, _, rfl, htrail, rfl, -⟩, -⟩ := h
  exact ⟨gap, lead, inside, trail, by simp, hgap, hlead, hinside, htrail⟩

/-- The rule looks for calls of some words. The mark with which each of them begins stands nowhere else
in a call but in its argument. -/
structure LooksForCalls (r : Rule) (mark : Char) (words : List String) : Prop where
  match?_word : ∀ word ∈ words, ∀ cs,
    r.pattern.match? (word.toList ++ cs) = argument.match? cs
  takes_word : ∀ {w groups}, r.pattern.Takes w groups →
    ∃ word ∈ words, ∃ v, w = word.toList ++ v ∧ argument.Takes v groups
  begins : ∀ word ∈ words, ∃ more, word.toList = mark :: more ∧ mark ∉ more
  arguments_mark : arguments.holds mark = true
  opening_mark : opening.holds mark = false
  mark_ne : mark ≠ '('

namespace LooksForCalls

variable {r : Rule} {mark : Char} {words : List String} {u cs : List Char}

theorem isBlank_mark (h : r.LooksForCalls mark words) : isBlank mark = false := by
  have hmark := h.opening_mark
  rw [Bool.eq_false_iff, Ne, holds_opening_iff, not_or] at hmark
  exact Bool.eq_false_iff.mpr hmark.1

theorem openCall_of_passesOver (h : r.LooksForCalls mark words)
    (hpasses : r.pattern.PassesOver u (mark :: cs)) : OpenCall words u := by
  obtain ⟨x, rest, groups, hu, hx, hsplit, htakes⟩ := hpasses.exists_takes
  obtain ⟨_, x, rfl⟩ := List.exists_cons_of_ne_nil hx
  obtain ⟨rfl, -⟩ := List.cons.inj hsplit
  obtain ⟨b, u, rfl⟩ := List.exists_cons_of_ne_nil hu
  obtain ⟨word, hword, v, hw, hargument⟩ := h.takes_word htakes
  obtain ⟨gap, lead, inside, trail, rfl, hgap, hlead, hinside, htrail⟩ :=
    shape_of_takes_argument hargument
  obtain ⟨more, hbegins, hmore⟩ := h.begins word hword
  have hfront : mark ∉ more ++ (gap ++ '(' :: lead) := by
    simp only [List.mem_append, List.mem_cons, not_or]
    exact ⟨hmore, fun hmem => Bool.false_ne_true (h.isBlank_mark.symm.trans (hgap mark hmem)),
      h.mark_ne, fun hmem => Bool.false_ne_true (h.opening_mark.symm.trans (hlead mark hmem))⟩
  obtain ⟨rfl, hbehind⟩ : b = mark ∧
      u ++ mark :: x = more ++ (gap ++ '(' :: lead) ++ (inside ++ trail) := by
    simpa [hbegins] using hw
  obtain ⟨l, rfl, hl⟩ := exists_of_begins_behind hbehind hfront
  -- the mark stands in the argument, so what is left of the argument before it has no end
  have hbefore : ∀ c ∈ l, arguments.holds c = true := by
    rcases List.append_eq_append_iff.mp hl with ⟨m, -, hm⟩ | ⟨m, hm, -⟩
    · have hmem : b ∈ trail := hm ▸ List.mem_append_right m List.mem_cons_self
      exact absurd (h.opening_mark.symm.trans (htrail b hmem)) Bool.false_ne_true
    · exact fun c hc => hinside c (hm ▸ List.mem_append_left m hc)
  refine ⟨word, hword, gap, lead, l, by simp [hbegins], hgap, ?_, ?_⟩
  · simpa only [holds_opening_iff] using hlead
  · simpa only [holds_arguments_iff] using hbefore

theorem passesOver_of_openCall (h : r.LooksForCalls mark words) (hopen : OpenCall words u) :
    r.pattern.PassesOver u (mark :: cs) := by
  obtain ⟨word, hword, gap, lead, inside, rfl, hgap, hlead, hinside⟩ := hopen
  simp only [← holds_opening_iff] at hlead
  simp only [← holds_arguments_iff] at hinside
  -- the blanks with which the argument begins are passed over with the quotes
  obtain ⟨more, inside, rfl, hmore, hfirst⟩ := exists_run opening.holds inside
  obtain ⟨run, behind, rfl, hrun, hend⟩ := exists_run arguments.holds cs
  obtain ⟨trail, rest, rfl, htrail, hrest⟩ := exists_run opening.holds behind
  have hargument : ∀ c ∈ inside ++ mark :: run, arguments.holds c = true :=
    List.forall_mem_append.mpr ⟨(List.forall_mem_append.mp hinside).2,
      List.forall_mem_cons.mpr ⟨h.arguments_mark, hrun⟩⟩
  have hbegin : ∀ c ∈ (inside ++ mark :: run).head?, opening.holds c = false := by
    cases inside with
    | nil => simpa using h.opening_mark
    | cons c inside => simpa using hfirst
  have hmatch := match?_argument hgap (List.forall_mem_append.mpr ⟨hlead, hmore⟩) (by simp)
    hargument hbegin htrail hend hrest
  refine ⟨mark :: (run ++ trail), rest, [String.ofList (inside ++ mark :: run)], by simp, by simp,
    by simp, ?_⟩
  rw [← h.match?_word word hword] at hmatch
  simpa using hmatch

end LooksForCalls

/-- A call that is not finished stands at the end of `before`, and the search comes to it. -/
def LeftOpen (r : Rule) (words : List String) (before after : String) : Prop :=
  ∃ opened, opened <:+ before.toList ∧ OpenCall words opened ∧
    r.pattern.ComesTo (before ++ after).toList (opened ++ after.toList)

theorem LooksForCalls.comesTo_iff {r : Rule} {mark : Char} {words : List String}
    (h : r.LooksForCalls mark words) {before after : String} {cs : List Char}
    (hafter : after.toList = mark :: cs) :
    r.pattern.ComesTo (before ++ after).toList after.toList ↔ ¬ LeftOpen r words before after := by
  rw [LeftOpen, String.toList_append, Pattern.comesTo_append_iff]
  constructor
  · intro hcomes hopen
    obtain ⟨opened, hsuffix, hcall, hreached⟩ := hopen
    refine hcomes opened hsuffix hreached ?_
    rw [hafter]
    exact h.passesOver_of_openCall hcall
  · intro hopen v hv hreached hpasses
    rw [hafter] at hpasses
    exact hopen ⟨v, hv, h.openCall_of_passesOver hpasses, hreached⟩

/-- Nothing is left open if no parenthesis opens behind the last one that closes. -/
theorem not_leftOpen_of_closed {r : Rule} {words : List String} {before after : String}
    (h : '(' ∉ before.toList.reverse.takeWhile (· != ')')) : ¬ LeftOpen r words before after := by
  intro hopen
  obtain ⟨_, ⟨front, hfront⟩, ⟨word, -, gap, lead, inside, rfl, -, hlead, hinside⟩, -⟩ := hopen
  have hunclosed : ∀ c ∈ ('(' :: (lead ++ inside)).reverse, (c != ')') = true := by
    intro c hc
    rw [List.mem_reverse, List.mem_cons, List.mem_append] at hc
    rw [bne_iff_ne]
    rintro rfl
    rcases hc with hc | hc | hc
    · exact absurd hc (by decide)
    · exact absurd (hlead _ hc) (by decide)
    · exact hinside _ hc (.inr (.inr rfl))
  refine h ?_
  rw [← hfront, List.reverse_append, List.reverse_append, List.reverse_append, List.append_assoc,
    List.append_assoc, List.takeWhile_append_of_pos hunclosed]
  simp

/-! ### The two rules -/

theorem looksForCalls_viewCall : viewCall.LooksForCalls 'v' ["view"] where
  match?_word := by
    intro word hword cs
    obtain rfl := List.mem_singleton.mp hword
    exact Pattern.match?_literal "view" argument cs
  takes_word := by
    intro w groups h
    obtain ⟨_, v, rfl, rfl, hv⟩ := h
    exact ⟨"view", List.mem_cons_self, v, rfl, hv⟩
  begins := by
    intro word hword
    obtain rfl := List.mem_singleton.mp hword
    exact ⟨['i', 'e', 'w'], rfl, by decide⟩
  arguments_mark := by decide
  opening_mark := by decide
  mark_ne := by decide

def directives : List String := ["@include", "@extends", "@component", "@yield", "@section"]

theorem mem_directives_iff {word : String} : word ∈ directives ↔
    ∃ name ∈ ["include", "extends", "component", "yield", "section"], word = "@" ++ name := by
  simp [directives]

theorem rests_directive {name : String} (cs : List Char)
    (h : name ∈ ["include", "extends", "component", "yield", "section"]) :
    (Piece.choice ["include", "extends", "component", "yield", "section"]).rests
      (name.toList ++ cs) = [cs] := by
  simp only [List.mem_cons, List.not_mem_nil, or_false] at h
  rcases h with rfl | rfl | rfl | rfl | rfl <;> rfl

theorem looksForCalls_structuralDirective :
    structuralDirective.LooksForCalls '@' directives where
  match?_word := by
    intro word hword cs
    obtain ⟨name, hname, rfl⟩ := mem_directives_iff.mp hword
    rw [String.toList_append, List.append_assoc, structuralDirective, Pattern.match?_literal,
      Pattern.match?, rests_directive cs hname, List.findSome?_singleton]
    rfl
  takes_word := by
    intro w groups h
    obtain ⟨_, _, rfl, rfl, _, v, rfl, ⟨name, hname, rfl⟩, hv⟩ := h
    exact ⟨"@" ++ name, mem_directives_iff.mpr ⟨name, hname, rfl⟩, v, by simp, hv⟩
  begins := by
    intro word hword
    obtain ⟨name, hname, rfl⟩ := mem_directives_iff.mp hword
    have hmark : ∀ name ∈ ["include", "extends", "component", "yield", "section"],
        '@' ∉ name.toList := by decide
    exact ⟨name.toList, by simp, hmark name hname⟩
  arguments_mark := by decide
  opening_mark := by decide
  mark_ne := by decide

/-! ### Literal calls -/

/-- A name that can stand in quotes between parentheses: neither blanks nor quotes nor closing
parentheses. -/
structure IsPlainName (name : String) : Prop where
  ne_empty : name ≠ ""
  plain : ∀ c ∈ name.toList, isBlank c = false ∧ ¬ (c = '\'' ∨ c = '"' ∨ c = ')')

/-- Letters and numbers, dots, underscores and hyphens make a plain name. -/
theorem isPlainName_of_letters {name : String} (hne : name ≠ "")
    (h : ∀ c ∈ name.toList, isLetterOrNumber c ∨ c = '.' ∨ c = '_' ∨ c = '-') :
    IsPlainName name := by
  refine ⟨hne, fun c hc => ?_⟩
  rcases h c hc with hletter | rfl | rfl | rfl
  · exact plain_of_isLetterOrNumber hletter
  · decide
  · decide
  · decide

theorem IsPlainName.arguments {name : String} (h : IsPlainName name) :
    ∀ c ∈ name.toList, arguments.holds c = true :=
  fun c hc => holds_arguments_iff.mpr (h.plain c hc).2

theorem IsPlainName.not_opening {name : String} (h : IsPlainName name) :
    ∀ c ∈ name.toList, opening.holds c = false := by
  intro c hc
  obtain ⟨hblank, hplain⟩ := h.plain c hc
  rw [Bool.eq_false_iff, Ne, holds_opening_iff, hblank]
  rintro (hfalse | rfl | rfl)
  · exact Bool.false_ne_true hfalse
  · exact hplain (.inl rfl)
  · exact hplain (.inr (.inl rfl))

def literalCall (word name : String) : String := word ++ "('" ++ name ++ "')"

theorem LooksForCalls.groups?_literalCall {r : Rule} {mark : Char} {words : List String}
    (h : r.LooksForCalls mark words) {word name : String} (hword : word ∈ words)
    (hname : IsPlainName name) (after : String) :
    r.pattern.groups? (literalCall word name ++ after).toList = some [name] := by
  have hquote : ∀ c ∈ ['\''], opening.holds c = true := List.all_eq_true.mp (by decide)
  have hmatch : argument.match? ([] ++ '(' :: (['\''] ++ (name.toList ++
      (['\''] ++ ')' :: after.toList)))) =
        some ([String.ofList name.toList], ')' :: after.toList) :=
    match?_argument (by simp) hquote (by simpa using hname.ne_empty) hname.arguments
      (fun c hc => hname.not_opening c (List.mem_of_mem_head? hc)) hquote
      (by simpa using (by decide : arguments.holds '\'' = false))
      (by simpa using (by decide : opening.holds ')' = false))
  rw [← h.match?_word word hword, String.ofList_toList] at hmatch
  have htext : (literalCall word name ++ after).toList = word.toList ++ ([] ++ '(' :: (['\''] ++
      (name.toList ++ (['\''] ++ ')' :: after.toList)))) := by
    simp [literalCall]
  rw [htext]
  exact Pattern.groups?_of_match? hmatch

theorem LooksForCalls.mem_find {r : Rule} {mark : Char} {words : List String}
    (h : r.LooksForCalls mark words) {word name before after : String} (hword : word ∈ words)
    (hname : IsPlainName name) {ref : Reference} (href : ref ∈ r.references [name])
    (hopen : ¬ LeftOpen r words before (literalCall word name ++ after)) :
    ref ∈ r.find (before ++ (literalCall word name ++ after)) := by
  obtain ⟨more, hmore, -⟩ := h.begins word hword
  have hbegin : (literalCall word name ++ after).toList =
      mark :: (more ++ ("('" ++ name ++ "')" ++ after).toList) := by
    simp [literalCall, hmore]
  exact mem_find_of_comesTo ((h.comesTo_iff hbegin).mpr hopen)
    (h.groups?_literalCall hword hname after) href

end Rule

open Rule

theorem view_mem_extract {name before after : String} {kind : SourceKind} (hname : IsPlainName name)
    (hkind : kind ≠ .template)
    (hopen : ¬ LeftOpen viewCall ["view"] before (literalCall "view" name ++ after)) :
    .view name ∈ extract kind (before ++ (literalCall "view" name ++ after)) := by
  have hview : Reference.view name ∈ viewCall.references [name] := List.mem_cons_self
  have hrule : viewCall ∈ Rule.table kind := by
    cases kind with
    | route => simp [Rule.table, handlerRules]
    | handler => simp [Rule.table, handlerRules]
    | template => exact absurd rfl hkind
  exact List.mem_flatMap.mpr ⟨viewCall, hrule,
    looksForCalls_viewCall.mem_find List.mem_cons_self hname hview hopen⟩

theorem view_mem_extract_template {name word before after : String} (hname : IsPlainName name)
    (hword : word ∈ directives) (hdot : '.' ∈ name.toList)
    (hopen : ¬ LeftOpen structuralDirective directives before (literalCall word name ++ after)) :
    .view name ∈ extract .template (before ++ (literalCall word name ++ after)) := by
  have hview : Reference.view name ∈ structuralDirective.references [name] := by
    simp [structuralDirective, hdot]
  exact List.mem_flatMap.mpr ⟨structuralDirective, List.mem_cons_self,
    looksForCalls_structuralDirective.mem_find hword hname hview hopen⟩

/-- A literal call is found unless an earlier call is left open. -/
theorem extract_of_literalCall {name : String} (hname : IsPlainName name) (before after : String) :
    (∀ kind ≠ .template, ¬ LeftOpen viewCall ["view"] before (literalCall "view" name ++ after) →
      .view name ∈ extract kind (before ++ (literalCall "view" name ++ after))) ∧
    ∀ word ∈ directives, '.' ∈ name.toList →
      ¬ LeftOpen structuralDirective directives before (literalCall word name ++ after) →
      .view name ∈ extract .template (before ++ (literalCall word name ++ after)) :=
  ⟨fun _ hkind hopen => view_mem_extract hname hkind hopen,
    fun _ hword hdot hopen => view_mem_extract_template hname hword hdot hopen⟩

theorem extract_of_literalCall_mail :
    IsPlainName "mail.welcome" ∧ SourceKind.handler ≠ .template ∧
      ¬ LeftOpen viewCall ["view"] "// the old view (see below)\nreturn "
        (literalCall "view" "mail.welcome" ++ "->render();") ∧
      "@include" ∈ directives ∧ '.' ∈ "mail.welcome".toList ∧
      ¬ LeftOpen structuralDirective directives "@section ('title', __('mail (1)')) @yield "
        (literalCall "@include" "mail.welcome" ++ "@stop") ∧
      .view "mail.welcome" ∈ extract .handler ("// the old view (see below)\nreturn " ++
        (literalCall "view" "mail.welcome" ++ "->render();")) ∧
      .view "mail.welcome" ∈ extract .template ("@section ('title', __('mail (1)')) @yield " ++
        (literalCall "@include" "mail.welcome" ++ "@stop")) := by
  have hletters : ∀ c ∈ "mail.welcome".toList,
      isLetterOrNumber c ∨ c = '.' ∨ c = '_' ∨ c = '-' := by
    have hall : "mail.welcome".toList.all
        (fun c => isLetterOrNumber c || c == '.' || c == '_' || c == '-') = true := by decide +kernel
    simpa only [List.all_eq_true, Bool.or_eq_true, beq_iff_eq, or_assoc] using hall
  have hname : IsPlainName "mail.welcome" := isPlainName_of_letters (by decide) hletters
  have hview : ¬ LeftOpen viewCall ["view"] "// the old view (see below)\nreturn "
      (literalCall "view" "mail.welcome" ++ "->render();") := not_leftOpen_of_closed (by decide)
  have hdirective : ¬ LeftOpen structuralDirective directives
      "@section ('title', __('mail (1)')) @yield "
      (literalCall "@include" "mail.welcome" ++ "@stop") := not_leftOpen_of_closed (by decide)
  have hword : "@include" ∈ directives := List.mem_cons_self
  have hdot : '.' ∈ "mail.welcome".toList := by decide
  exact ⟨hname, by decide, hview, hword, hdot, hdirective,
    (extract_of_literalCall hname _ _).1 .handler (by decide) hview,
    (extract_of_literalCall hname _ _).2 "@include" hword hdot hdirective⟩

/-- No literal call is missed behind a text in which no parenthesis opens behind the last one that
closes. -/
theorem extract_behind_closed {name before : String} (hname : IsPlainName name)
    (h : '(' ∉ before.toList.reverse.takeWhile (· != ')')) (after : String) :
    (∀ kind ≠ .template,
      .view name ∈ extract kind (before ++ (literalCall "view" name ++ after))) ∧
    ∀ word ∈ directives, '.' ∈ name.toList →
      .view name ∈ extract .template (before ++ (literalCall word name ++ after)) :=
  ⟨fun _ hkind => view_mem_extract hname hkind (not_leftOpen_of_closed h),
    fun _ hword hdot => view_mem_extract_template hname hword hdot (not_leftOpen_of_closed h)⟩

/-- An unfinished call takes up the literal call behind it, and the name is missed. -/
theorem name_missed_behind_open_call :
    .view "home" ∉ extract .route ("view(" ++ literalCall "view" "home") ∧
      .view "mail.head" ∉ extract .template ("@include(" ++ literalCall "@include" "mail.head") := by
  decide +kernel

end UnusedAssets
