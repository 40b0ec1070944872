import UnusedAssets.Proofs.Pattern.Preference
import UnusedAssets.Proofs.Rule.Basic
import UnusedAssets.Proofs.Text.Joined

/-!
# Lists of bundler entries

A bundler directive lists values in quotes. The rule takes the whole list (`match?_text`), finds the
values in it one after the other (`findAll_entries`), and goes on right behind the directive.
-/

namespace UnusedAssets

open Text CharClass

/-- One value of a bundler directive, with the blanks around its quotes. -/
structure BundlerItem where
  before : String
  doubleQuoted : Bool
  value : String
  after : String
  before_blank : ∀ c ∈ before.toList, isBlank c
  value_ne : value ≠ ""
  value_plain : ∀ c ∈ value.toList, ¬ (c = '\'' ∨ c = '"') ∧ c ≠ ']'
  after_blank : ∀ c ∈ after.toList, isBlank c

namespace Rule

theorem match?_bundlerEntry {quote closing : Char} {value rest : List Char}
    (hquote : quotes.holds quote = true) (hne : value ≠ [])
    (hvalue : ∀ c ∈ value, unquoted.holds c = true) (hclosing : quotes.holds closing = true) :
    bundlerEntry.match? (quote :: (value ++ [closing]) ++ rest) =
      some ([String.ofList value], rest) := by
  have hend : Pattern.match? [.piece (.single quotes)] (closing :: rest) = some ([], rest) :=
    Pattern.match?_single hclosing [] rest
  have hgroup := Pattern.match?_group_run hne hvalue
    (by simpa using not_unquoted_of_quotes hclosing) hend
  rw [List.cons_append, List.append_assoc, ← hgroup]
  exact Pattern.match?_single hquote _ _

theorem findAll_bundlerEntry_nil : bundlerEntry.findAll [] = [] := by decide +kernel

/-- No entry begins in a text without quotes. -/
theorem findAll_bundlerEntry_gap {gap rest : List Char} (h : ∀ c ∈ gap, unquoted.holds c = true) :
    bundlerEntry.findAll (gap ++ rest) = bundlerEntry.findAll rest := by
  refine Pattern.findAll_append_of_none fun v hne hv => ?_
  obtain ⟨c, v, rfl⟩ := List.exists_cons_of_ne_nil hne
  have hc : quotes.holds c = false := by
    rw [Bool.eq_false_iff]
    intro hquote
    have hplain := h c (hv.mem List.mem_cons_self)
    rw [not_unquoted_of_quotes hquote] at hplain
    exact absurd hplain (by decide)
  exact Pattern.match?_single_of_not hc _ _

end Rule

open Rule

namespace BundlerItem

def quote (i : BundlerItem) : Char := if i.doubleQuoted then '"' else '\''

def text (i : BundlerItem) : String :=
  i.before ++ i.quote.toString ++ i.value ++ i.quote.toString ++ i.after

variable (i : BundlerItem)

theorem toList_text : i.text.toList =
    i.before.toList ++ (i.quote :: (i.value.toList ++ i.quote :: i.after.toList)) := by
  unfold text
  simp only [String.toList_append, Char.toString_eq_singleton, String.toList_singleton,
    List.append_assoc, List.cons_append, List.nil_append]

theorem quote_holds : quotes.holds i.quote = true := by
  unfold quote
  split <;> decide

theorem listed_text : ∀ c ∈ i.text.toList, listed.holds c = true := by
  have hquote : listed.holds i.quote = true := by
    unfold quote
    split <;> decide
  rw [i.toList_text, List.forall_mem_append, List.forall_mem_cons, List.forall_mem_append,
    List.forall_mem_cons]
  exact ⟨fun c hc => listed_of_isBlank (i.before_blank c hc), hquote,
    fun c hc => holds_listed_iff.mpr (i.value_plain c hc).2, hquote,
    fun c hc => listed_of_isBlank (i.after_blank c hc)⟩

theorem findAll_text (rest : List Char) : bundlerEntry.findAll (i.text.toList ++ rest) =
    [i.value] :: bundlerEntry.findAll rest := by
  have hvalue : ∀ c ∈ i.value.toList, unquoted.holds c = true :=
    fun c hc => holds_unquoted_iff.mpr (i.value_plain c hc).1
  have hmatch : bundlerEntry.match? (i.quote :: (i.value.toList ++ [i.quote]) ++
      (i.after.toList ++ rest)) = some ([i.value], i.after.toList ++ rest) := by
    rw [match?_bundlerEntry i.quote_holds (by simpa using i.value_ne) hvalue i.quote_holds,
      String.ofList_toList]
  have htext : i.text.toList ++ rest = i.before.toList ++
      (i.quote :: (i.value.toList ++ [i.quote]) ++ (i.after.toList ++ rest)) := by
    rw [i.toList_text]
    simp
  rw [htext, findAll_bundlerEntry_gap fun c hc => unquoted_of_isBlank (i.before_blank c hc),
    Pattern.findAll_of_match? hmatch (by simp),
    findAll_bundlerEntry_gap fun c hc => unquoted_of_isBlank (i.after_blank c hc)]

theorem findAll_joined {items : List BundlerItem} (hne : items ≠ []) {gap : List Char}
    (hgap : ∀ c ∈ gap, unquoted.holds c = true) :
    bundlerEntry.findAll ((joinWith "," (items.map text)).toList ++ gap) =
      items.map fun i => [i.value] := by
  induction items with
  | nil => exact absurd rfl hne
  | cons i items ih =>
    cases items with
    | nil =>
      have hend : bundlerEntry.findAll gap = [] := by
        rw [← List.append_nil gap, findAll_bundlerEntry_gap hgap, findAll_bundlerEntry_nil]
      rw [List.map_singleton, List.map_singleton, ← hend]
      exact i.findAll_text gap
    | cons j items =>
      have hcomma : ∀ c ∈ ",".toList, unquoted.holds c = true :=
        List.all_eq_true.mp (by decide)
      have hmore : (j :: items).map text ≠ [] := by simp
      rw [List.map_cons, joinWith_cons "," i.text hmore, String.toList_append, String.toList_append,
        List.append_assoc, List.append_assoc, i.findAll_text, findAll_bundlerEntry_gap hcomma,
        ih (by simp)]
      rfl

end BundlerItem

/-- A bundler directive with a list. The list may end in a comma, with blanks behind it. -/
structure BundlerDirective where
  lead : String
  items : List BundlerItem
  trailer : Option String
  close : String
  lead_blank : ∀ c ∈ lead.toList, isBlank c
  items_ne : items ≠ []
  trailer_blank : ∀ gap ∈ trailer, ∀ c ∈ gap.toList, isBlank c
  close_blank : ∀ c ∈ close.toList, isBlank c

namespace BundlerDirective

def tail (d : BundlerDirective) : String :=
  match d.trailer with
  | none => ""
  | some gap => "," ++ gap

def entries (d : BundlerDirective) : String := joinWith "," (d.items.map (·.text)) ++ d.tail

def text (d : BundlerDirective) : String :=
  "@vite(" ++ d.lead ++ "[" ++ d.entries ++ "]" ++ d.close ++ ")"

variable (d : BundlerDirective)

theorem toList_text (after : List Char) : d.text.toList ++ after =
    "@vite(".toList ++ (d.lead.toList ++ ("[".toList ++ (d.entries.toList ++
      ("]".toList ++ (d.close.toList ++ (")".toList ++ after)))))) := by
  unfold text
  simp only [String.toList_append, List.append_assoc]

theorem tail_plain : ∀ c ∈ d.tail.toList, c = ',' ∨ isBlank c = true := by
  unfold tail
  split
  · simp
  · next gap hgap =>
    intro c hc
    rw [String.toList_append, List.mem_append] at hc
    rcases hc with hc | hc
    · exact .inl (by simpa using hc)
    · exact .inr (d.trailer_blank gap hgap c hc)

theorem findAll_entries :
    bundlerEntry.findAll d.entries.toList = d.items.map fun i => [i.value] := by
  rw [entries, String.toList_append]
  refine BundlerItem.findAll_joined d.items_ne fun c hc => ?_
  rcases d.tail_plain c hc with rfl | hblank
  · decide
  · exact unquoted_of_isBlank hblank

theorem entries_ne : d.entries.toList ≠ [] := by
  intro h
  have hfound := d.findAll_entries
  rw [h, findAll_bundlerEntry_nil] at hfound
  exact d.items_ne (List.map_eq_nil_iff.mp hfound.symm)

theorem listed_entries : ∀ c ∈ d.entries.toList, listed.holds c = true := by
  intro c hc
  rw [entries, String.toList_append, List.mem_append] at hc
  rcases hc with hc | hc
  · rcases mem_joinWith hc with hcomma | ⟨s, hs, hmem⟩
    · obtain rfl : c = ',' := by simpa using hcomma
      decide
    · obtain ⟨i, -, rfl⟩ := List.mem_map.mp hs
      exact i.listed_text c hmem
  · rcases d.tail_plain c hc with rfl | hblank
    · decide
    · exact listed_of_isBlank hblank

theorem match?_text (after : List Char) :
    bundlerList.pattern.match? (d.text.toList ++ after) = some ([d.entries], after) := by
  have hparen : Pattern.match? [.piece (.literal ")")] (")".toList ++ after) = some ([], after) :=
    Pattern.match?_literal ")" [] after
  have hclose := Pattern.match?_many (k := blanks) (by simpa only [holds_blanks] using d.close_blank)
    (by simpa [holds_blanks] using (by decide : isBlank ')' = false)) hparen
  have hbracket := (Pattern.match?_literal "]" _ _).trans hclose
  have hentries := Pattern.match?_group_run (k := listed) d.entries_ne d.listed_entries
    (by simpa using (by decide : listed.holds ']' = false)) hbracket
  have hopening := (Pattern.match?_literal "[" _ _).trans hentries
  have hlead := Pattern.match?_many (k := blanks) (by simpa only [holds_blanks] using d.lead_blank)
    (by simpa [holds_blanks] using (by decide : isBlank '[' = false)) hopening
  rw [String.ofList_toList] at hlead
  rw [d.toList_text, ← hlead]
  exact Pattern.match?_literal "@vite(" _ _

/-- No match begins in front of the directive: the word of a directive begins with a character that it
holds nowhere else. -/
theorem match?_before {before : String} (h : mentions before "@vite(" = false) {v cs : List Char}
    (hne : v ≠ []) (hv : v <:+ before.toList) :
    bundlerList.pattern.match? (v ++ '@' :: cs) = none := by
  rw [Pattern.match?_eq_none_iff]
  intro w rest groups hsplit htakes
  obtain ⟨_, w, rfl, rfl, -⟩ := htakes
  obtain ⟨b, v, rfl⟩ := List.exists_cons_of_ne_nil hne
  have hfirst : "@vite(".toList = '@' :: "vite(".toList := by decide
  rw [hfirst, List.append_assoc, List.cons_append, List.cons_append] at hsplit
  obtain ⟨rfl, hbehind⟩ := List.cons.inj hsplit
  obtain ⟨m, rfl, -⟩ := exists_of_begins_behind hbehind (by decide)
  obtain ⟨l, hl⟩ := hv
  have hmentions : mentions before "@vite(" = true :=
    mentions_iff.mpr ⟨l, m, by rw [← hl, hfirst]; simp⟩
  rw [h] at hmentions
  exact absurd hmentions (by decide)

theorem references_entries :
    bundlerList.references [d.entries] = d.items.map fun i => .bundle i.value := by
  have hfound : bundlerList.references [d.entries] =
      (bundlerEntry.findAll d.entries.toList).flatMap (ofGroup .bundle) := rfl
  rw [hfound, d.findAll_entries, List.flatMap_map, List.map_eq_flatMap]
  rfl

theorem find_bundlerList {before : String} (h : mentions before "@vite(" = false)
    (after : String) : bundlerList.find (before ++ d.text ++ after) =
      d.items.map (fun i => .bundle i.value) ++ bundlerList.find after := by
  have hcontent : (before ++ d.text ++ after).toList =
      before.toList ++ (d.text.toList ++ after.toList) := by simp
  have hbegin : d.text.toList ++ after.toList = '@' :: ("vite(".toList ++ (d.lead.toList ++
      ("[".toList ++ (d.entries.toList ++ ("]".toList ++ (d.close.toList ++
        (")".toList ++ after.toList))))))) := by
    rw [d.toList_text]
    rfl
  have hbefore : bundlerList.pattern.findAll (before.toList ++ (d.text.toList ++ after.toList)) =
      bundlerList.pattern.findAll (d.text.toList ++ after.toList) := by
    refine Pattern.findAll_append_of_none fun v hne hv => ?_
    rw [hbegin]
    exact match?_before h hne hv
  have hne : d.text.toList ≠ [] := by
    unfold text
    simp
  rw [find, find, hcontent, hbefore, Pattern.findAll_of_match? (d.match?_text after.toList) hne,
    List.flatMap_cons, d.references_entries]

/-- Styles and scripts on lines of their own, in either kind of quotes. -/
def appDirective : BundlerDirective where
  lead := " "
  items :=
    [{ before := "\n  ", doubleQuoted := false, value := "resources/css/app.css", after := ""
       before_blank := List.all_eq_true.mp (by decide)
       value_ne := by decide
       value_plain := by simp
       after_blank := List.all_eq_true.mp (by decide) },
     { before := "\n  ", doubleQuoted := true, value := "resources/js/app.js", after := " "
       before_blank := List.all_eq_true.mp (by decide)
       value_ne := by decide
       value_plain := by simp
       after_blank := List.all_eq_true.mp (by decide) }]
  trailer := some "\n"
  close := ""
  lead_blank := List.all_eq_true.mp (by decide)
  items_ne := by decide
  trailer_blank := by simpa using (by decide : isBlank '\n' = true)
  close_blank := List.all_eq_true.mp (by decide)

theorem find_appDirective : mentions "<head> @vite " "@vite(" = false ∧
    bundlerList.find ("<head> @vite " ++ appDirective.text ++ " @vite(['resources/js/nav.js'])") =
      [.bundle "resources/css/app.css", .bundle "resources/js/app.js",
        .bundle "resources/js/nav.js"] := by
  have hbefore : mentions "<head> @vite " "@vite(" = false := by decide
  have hafter : bundlerList.find " @vite(['resources/js/nav.js'])" =
      [.bundle "resources/js/nav.js"] := by decide +kernel
  exact ⟨hbefore, by rw [find_bundlerList appDirective hbefore, hafter]; rfl⟩

end BundlerDirective

end UnusedAssets
