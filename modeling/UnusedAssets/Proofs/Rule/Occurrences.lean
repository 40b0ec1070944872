import UnusedAssets.Proofs.Pattern.Preference
import UnusedAssets.Proofs.Pattern.Search
import UnusedAssets.Proofs.Rule.Basic

/-!
# Rules that miss nothing

What the rules for imports, component tags and asset attributes look for is said here in plain terms
(`ImportAt`, `TagAt`, `LocalAssetAt`). No text of one of these rules begins inside another, so each of
them finds all that stands in a file, whatever stands around it (`occurrences_of_find`).
-/

namespace UnusedAssets

open Text

open CharClass

namespace Rule

/-! ### Imports -/

def ImportAt (cs : List Char) (name : String) : Prop :=
  ∃ gap rest, cs = "use".toList ++ (gap ++ (name.toList ++ ';' :: rest)) ∧
    gap ≠ [] ∧ (∀ c ∈ gap, isBlank c) ∧
    name.toList ≠ [] ∧ ∀ c ∈ name.toList, c.isAlphanum ∨ c = '\\'

theorem takes_useStatement_iff {w : List Char} {groups : List String} :
    useStatement.pattern.Takes w groups ↔ ∃ gap name,
      w = "use".toList ++ (gap ++ (name ++ [';'])) ∧ gap ≠ [] ∧ (∀ c ∈ gap, isBlank c) ∧
      name ≠ [] ∧ (∀ c ∈ name, classNames.holds c) ∧ groups = [String.ofList name] := by
  simp only [useStatement, Pattern.Takes, Piece.TakeAll, Piece.Takes, holds_blanks]
  constructor
  · rintro ⟨_, _, rfl, rfl, gap, _, rfl, ⟨hgap, hblank⟩, _, _, _, rfl,
      ⟨name, _, rfl, ⟨hne, hname⟩, rfl⟩, ⟨_, _, rfl, rfl, rfl, rfl⟩, rfl⟩
    exact ⟨gap, name, by simp, hgap, hblank, hne, hname, by simp⟩
  · rintro ⟨gap, name, rfl, hgap, hblank, hne, hname, rfl⟩
    exact ⟨_, _, rfl, rfl, gap, _, rfl, ⟨hgap, hblank⟩, name, _, [], rfl,
      ⟨name, [], by simp, ⟨hne, hname⟩, rfl⟩, ⟨[';'], [], by simp, by decide, rfl, rfl⟩, rfl⟩

theorem separate_useStatement : useStatement.pattern.Separate where
  ne_nil := by
    intro w groups h
    obtain ⟨gap, name, rfl, -⟩ := takes_useStatement_iff.mp h
    simp
  not_inside := by
    intro u v w rest rest' groups groups' h hu hv h' hsame
    obtain ⟨gap, name, hw, -, hblank, -, hname, -⟩ := takes_useStatement_iff.mp h
    obtain ⟨gap', name', rfl, hgap', hblank', -⟩ := takes_useStatement_iff.mp h'
    obtain ⟨g, gap', rfl⟩ := List.exists_cons_of_ne_nil hgap'
    obtain ⟨a, v, rfl⟩ := List.exists_cons_of_ne_nil hv
    obtain rfl : a = 'u' := (List.cons.inj hsame).1
    -- no `u` stands behind the first one but in the name
    have hlead : 'u' ∉ "se".toList ++ gap := by
      rw [List.mem_append, not_or]
      exact ⟨by decide, fun hu => absurd (hblank _ hu) (by decide)⟩
    obtain ⟨l, r, rfl, hr⟩ :=
      exists_of_begins_inside ("se".toList ++ gap) (by simpa using hw) hu hlead (by decide)
    rw [hr] at hsame
    have hspan : r ++ ';' :: rest = "use".toList ++ g :: (gap' ++ (name' ++ [';']) ++ rest') := by
      simpa using hsame
    obtain ⟨-, rfl, -⟩ := run_cons_inj (p := classNames.holds) hspan
      (fun c hc => hname c (List.mem_append_right l hc)) (by decide) (by simp [holds_classNames_iff])
      (classNames_eq_false_of_isBlank (hblank' g List.mem_cons_self))
    exact absurd (hblank' _ List.mem_cons_self) (by decide)

theorem eq_of_importAt {cs : List Char} {name name' : String} (h : ImportAt cs name)
    (h' : ImportAt cs name') : name = name' := by
  obtain ⟨gap, rest, rfl, -, hblank, hne, hname⟩ := h
  obtain ⟨gap', rest', hsame, -, hblank', hne', hname'⟩ := h'
  simp only [← holds_classNames_iff] at hname hname'
  have hnext : ∀ {name : String} {rest : List Char}, name.toList ≠ [] →
      (∀ c ∈ name.toList, classNames.holds c = true) →
      ∀ c ∈ (name.toList ++ ';' :: rest).head?, isBlank c = false := by
    intro name rest hne hname c hc
    rw [List.head?_append_of_ne_nil _ hne] at hc
    exact isBlank_eq_false_of_classNames (hname c (List.mem_of_mem_head? hc))
  obtain ⟨-, hnames⟩ := run_inj (List.append_cancel_left hsame) hblank (hnext hne hname) hblank'
    (hnext hne' hname')
  obtain ⟨hnames, -⟩ := run_cons_inj (p := classNames.holds) hnames hname (by decide) hname'
    (by decide)
  exact String.toList_inj.mp hnames

theorem reads_useStatement : useStatement.pattern.Reads ImportAt := by
  refine .of_takes ?_ ?_ eq_of_importAt
  · intro w groups h
    obtain ⟨gap, name, rfl, hgap, hblank, hne, hname, rfl⟩ := takes_useStatement_iff.mp h
    refine ⟨_, rfl, fun rest => ⟨gap, rest, by simp, hgap, hblank, by simpa using hne, ?_⟩⟩
    simpa [← holds_classNames_iff] using hname
  · intro cs name h
    obtain ⟨gap, rest, rfl, hgap, hblank, hne, hname⟩ := h
    simp only [← holds_classNames_iff] at hname
    exact ⟨_, rest, by simp, takes_useStatement_iff.mpr ⟨gap, name.toList, rfl, hgap, hblank, hne,
      hname, by rw [String.ofList_toList]⟩⟩

/-! ### Component tags -/

/-- A text begins with a component tag, whose name goes on as long as it can. -/
def TagAt (cs : List Char) (name : String) : Prop :=
  ∃ rest, cs = "<x-".toList ++ (name.toList ++ rest) ∧ name.toList ≠ [] ∧
    (∀ c ∈ name.toList, c.isLower ∨ c.isDigit ∨ c = '.' ∨ c = '-') ∧
    ∀ c ∈ rest.head?, ¬ (c.isLower ∨ c.isDigit ∨ c = '.' ∨ c = '-')

theorem takes_componentTag_iff {w : List Char} {groups : List String} :
    componentTag.pattern.Takes w groups ↔ ∃ name, w = "<x-".toList ++ name ∧
      name ≠ [] ∧ (∀ c ∈ name, tagNames.holds c) ∧ groups = [String.ofList name] := by
  simp only [componentTag, Pattern.Takes, Piece.TakeAll, Piece.Takes]
  constructor
  · rintro ⟨_, _, rfl, rfl, _, _, _, rfl, ⟨name, _, rfl, ⟨hne, hname⟩, rfl⟩, ⟨rfl, rfl⟩, rfl⟩
    exact ⟨name, by simp, hne, hname, by simp⟩
  · rintro ⟨name, rfl, hne, hname, rfl⟩
    exact ⟨_, _, rfl, rfl, name, [], [], by simp, ⟨name, [], by simp, ⟨hne, hname⟩, rfl⟩,
      ⟨rfl, rfl⟩, rfl⟩

theorem separate_componentTag : componentTag.pattern.Separate where
  ne_nil := by
    intro w groups h
    obtain ⟨name, rfl, -⟩ := takes_componentTag_iff.mp h
    simp
  not_inside := by
    intro u v w rest rest' groups groups' h hu hv h' hsame
    obtain ⟨name, hw, -, hname, -⟩ := takes_componentTag_iff.mp h
    obtain ⟨name', rfl, -⟩ := takes_componentTag_iff.mp h'
    obtain ⟨b, u, rfl⟩ := List.exists_cons_of_ne_nil hu
    obtain ⟨a, v, rfl⟩ := List.exists_cons_of_ne_nil hv
    obtain rfl : a = '<' := (List.cons.inj hsame).1
    have hinside : u ++ '<' :: v = "x-".toList ++ name := (List.cons.inj hw).2
    have hbegin : '<' ∈ u ++ '<' :: v := List.mem_append_right u List.mem_cons_self
    rw [hinside] at hbegin
    rcases List.mem_append.mp hbegin with hlead | hmem
    · exact absurd hlead (by decide)
    · exact absurd (hname _ hmem) (by decide)

theorem reads_componentTag : componentTag.pattern.Reads TagAt where
  groups_of_stands := by
    intro cs name h
    obtain ⟨rest, rfl, hne, hname, hrest⟩ := h
    simp only [← holds_tagNames_iff, Bool.not_eq_true] at hname hrest
    have hmatch : Pattern.match? [.group [.some tagNames]] (name.toList ++ rest) =
        some ([String.ofList name.toList], rest) :=
      Pattern.match?_group_run hne hname hrest rfl
    rw [← Pattern.match?_literal "<x-", String.ofList_toList] at hmatch
    exact Pattern.groups?_of_match? hmatch
  stands_of_match := by
    intro cs m hm
    obtain ⟨w, rfl, hw⟩ := Pattern.takes_of_match? hm
    obtain ⟨run, rfl, hne, hrun, -⟩ := takes_componentTag_iff.mp hw
    obtain ⟨more, rest, hm, hmore, hrest⟩ := exists_run tagNames.holds m.2
    refine ⟨String.ofList (run ++ more), rest, by simp [hm], by simp [hne], ?_, ?_⟩
    · simp only [← holds_tagNames_iff, String.toList_ofList, List.forall_mem_append]
      exact ⟨hrun, hmore⟩
    · simpa only [← holds_tagNames_iff, Bool.not_eq_true] using hrest

/-! ### Asset attributes -/

/-- A value without quotes that ends in a dot and one of the extensions, and does not begin with
this dot. -/
def IsAssetName (value : String) : Prop :=
  (∀ c ∈ value.toList, ¬ (c = '\'' ∨ c = '"')) ∧
    ∃ base, ∃ ext ∈ assetExtensions, base ≠ "" ∧ value = base ++ "." ++ ext

def AssetAt (cs : List Char) (value : String) : Prop :=
  ∃ key ∈ ["href=", "src="], ∃ opening closing rest,
    cs = key.toList ++ opening :: (value.toList ++ closing :: rest) ∧
    (opening = '\'' ∨ opening = '"') ∧ (closing = '\'' ∨ closing = '"') ∧ IsAssetName value

theorem IsAssetName.unquoted {value : String} (h : IsAssetName value) :
    ∀ c ∈ value.toList, unquoted.holds c = true :=
  fun c hc => holds_unquoted_iff.mpr (h.1 c hc)

theorem IsAssetName.not_endsWith_equals {value : String} (h : IsAssetName value) (l : List Char) :
    value.toList ≠ l ++ ['='] := by
  obtain ⟨-, base, ext, hext, -, rfl⟩ := h
  have hlast : ∀ ext ∈ assetExtensions, ∃ c, ext.toList.getLast? = some c ∧ c ≠ '=' := by
    simp [assetExtensions]
  obtain ⟨c, hc, hne⟩ := hlast ext hext
  intro hvalue
  have hsame := congrArg List.getLast? hvalue
  simp only [String.toList_append, List.getLast?_append, hc, Option.or] at hsame
  simp at hsame
  exact hne hsame

theorem takeAll_assetValue_iff {value : String} :
    Piece.TakeAll [.some unquoted, .literal ".", .choice assetExtensions] value.toList ↔
      IsAssetName value := by
  have hext : ∀ ext ∈ assetExtensions, ∀ c ∈ ext.toList, unquoted.holds c = true := by
    simp [assetExtensions, holds_unquoted_iff]
  constructor
  · rintro ⟨base, _, hvalue, ⟨hne, hbase⟩, _, _, rfl, rfl, _, _, rfl, ⟨ext, hmem, rfl⟩, rfl⟩
    refine ⟨fun c hc => ?_, String.ofList base, ext, hmem, ?_, ?_⟩
    · rw [← holds_unquoted_iff]
      simp only [hvalue, List.append_nil, List.mem_append] at hc
      rcases hc with hc | hc | hc
      · exact hbase c hc
      · obtain rfl : c = '.' := by simpa using hc
        decide
      · exact hext ext hmem c hc
    · rw [Ne, ← String.toList_inj]
      simpa using hne
    · rw [← String.toList_inj, hvalue]
      simp
  · intro h
    have hunquoted := h.unquoted
    obtain ⟨-, base, ext, hmem, hne, rfl⟩ := h
    refine ⟨base.toList, ".".toList ++ ext.toList, by simp,
      ⟨?_, fun c hc => hunquoted c (by simp [hc])⟩,
      _, _, rfl, rfl, ext.toList, [], by simp, ⟨ext, hmem, rfl⟩, rfl⟩
    simpa using hne

theorem takes_assetAttribute_iff {w : List Char} {groups : List String} :
    assetAttribute.pattern.Takes w groups ↔ ∃ key ∈ ["href=", "src="], ∃ opening closing value,
      w = key.toList ++ opening :: (value.toList ++ [closing]) ∧ quotes.holds opening ∧
      quotes.holds closing ∧ IsAssetName value ∧ groups = [value] := by
  have hkeys : ∀ key, key ∈ ["href=", "src="] ↔ ∃ name ∈ ["href", "src"], key = name ++ "=" := by
    simp
  simp only [assetAttribute, Pattern.Takes, hkeys]
  constructor
  · rintro ⟨_, _, rfl, ⟨name, hname, rfl⟩, _, _, rfl, rfl, _, _, rfl, ⟨opening, rfl, hopening⟩,
      value, _, _, rfl, hvalue, ⟨_, _, rfl, ⟨closing, rfl, hclosing⟩, rfl, rfl⟩, rfl⟩
    rw [← String.toList_ofList (l := value), takeAll_assetValue_iff] at hvalue
    exact ⟨_, ⟨name, hname, rfl⟩, opening, closing, _, by simp, hopening, hclosing, hvalue, rfl⟩
  · rintro ⟨_, ⟨name, hname, rfl⟩, opening, closing, value, rfl, hopening, hclosing, hvalue, rfl⟩
    refine ⟨name.toList, _, by simp, ⟨name, hname, rfl⟩, _, _, rfl, rfl, [opening], _, rfl,
      ⟨opening, rfl, hopening⟩, value.toList, [closing], [], rfl, takeAll_assetValue_iff.mpr hvalue,
      ⟨[closing], [], rfl, ⟨closing, rfl, hclosing⟩, rfl, rfl⟩, ?_⟩
    rw [String.ofList_toList]

theorem exists_of_assetKey {key : String} (h : key ∈ ["href=", "src="]) :
    ∃ first middle, key.toList = first :: (middle ++ ['=']) ∧ (first = 'h' ∨ first = 's') ∧
      (∀ c ∈ middle, c ≠ 'h' ∧ c ≠ 's') ∧ ∀ c ∈ key.toList, unquoted.holds c = true := by
  simp only [List.mem_cons, List.not_mem_nil, or_false] at h
  rcases h with rfl | rfl
  · exact ⟨'h', ['r', 'e', 'f'], rfl, by simp [holds_unquoted_iff]⟩
  · exact ⟨'s', ['r', 'c'], rfl, by simp [holds_unquoted_iff]⟩

theorem separate_assetAttribute : assetAttribute.pattern.Separate where
  ne_nil := by
    intro w groups h
    obtain ⟨key, -, opening, closing, value, rfl, -⟩ := takes_assetAttribute_iff.mp h
    simp
  not_inside := by
    intro u v w rest rest' groups groups' h hu hv h' hsame
    obtain ⟨key, hkey, opening, closing, value, hw, hopening, hclosing, hvalue, -⟩ :=
      takes_assetAttribute_iff.mp h
    obtain ⟨key', hkey', opening', closing', value', rfl, hopening', -⟩ :=
      takes_assetAttribute_iff.mp h'
    obtain ⟨d, middle, hshape, -, hmiddle, -⟩ := exists_of_assetKey hkey
    obtain ⟨first, middle', hshape', hfirst, -, hunquoted'⟩ := exists_of_assetKey hkey'
    obtain ⟨a, v, rfl⟩ := List.exists_cons_of_ne_nil hv
    obtain rfl : a = first := by
      rw [hshape'] at hsame
      exact (List.cons.inj hsame).1
    have hquote : ∀ c, quotes.holds c = true → a ≠ c := by
      rintro c hc rfl
      rcases hfirst with rfl | rfl <;> exact absurd hc (by decide)
    -- the first letter of a key comes neither again in the key nor as a quote, but in the value
    have hlead : a ∉ middle ++ ['='] ++ [opening] := by
      simp only [List.mem_append, List.mem_singleton, not_or]
      refine ⟨⟨fun hmem => ?_, ?_⟩, hquote opening hopening⟩
      · exact hfirst.elim (hmiddle a hmem).1 (hmiddle a hmem).2
      · rcases hfirst with rfl | rfl <;> decide
    obtain ⟨l, r, hsplit, hr⟩ := exists_of_begins_inside (d := d)
      (middle ++ ['='] ++ [opening]) (by simpa [hshape] using hw) hu hlead
      (hquote closing hclosing)
    have hkeys : r ++ closing :: rest =
        key'.toList ++ opening' :: (value'.toList ++ [closing'] ++ rest') := by
      rw [hr] at hsame
      simpa using hsame
    obtain ⟨rfl, -⟩ := run_cons_inj (p := unquoted.holds) hkeys
      (fun c hc => hvalue.unquoted c (hsplit ▸ List.mem_append_right l hc))
      (not_unquoted_of_quotes hclosing) hunquoted' (not_unquoted_of_quotes hopening')
    exact hvalue.not_endsWith_equals (l ++ a :: middle') (by rw [hsplit, hshape']; simp)

theorem eq_of_assetAt {cs : List Char} {value value' : String} (h : AssetAt cs value)
    (h' : AssetAt cs value') : value = value' := by
  obtain ⟨key, hkey, opening, closing, rest, rfl, hopening, hclosing, hvalue⟩ := h
  obtain ⟨key', hkey', opening', closing', rest', hsame, hopening', hclosing', hvalue'⟩ := h'
  simp only [← holds_quotes_iff] at hopening hclosing hopening' hclosing'
  obtain ⟨-, -, -, -, -, hunquoted⟩ := exists_of_assetKey hkey
  obtain ⟨-, -, -, -, -, hunquoted'⟩ := exists_of_assetKey hkey'
  obtain ⟨-, -, hvalues⟩ := run_cons_inj hsame hunquoted (not_unquoted_of_quotes hopening)
    hunquoted' (not_unquoted_of_quotes hopening')
  obtain ⟨hvalues, -⟩ := run_cons_inj hvalues hvalue.unquoted (not_unquoted_of_quotes hclosing)
    hvalue'.unquoted (not_unquoted_of_quotes hclosing')
  exact String.toList_inj.mp hvalues

theorem reads_assetAttribute : assetAttribute.pattern.Reads AssetAt := by
  refine .of_takes ?_ ?_ eq_of_assetAt
  · intro w groups h
    obtain ⟨key, hkey, opening, closing, value, rfl, hopening, hclosing, hvalue, rfl⟩ :=
      takes_assetAttribute_iff.mp h
    exact ⟨value, rfl, fun rest => ⟨key, hkey, opening, closing, rest, by simp,
      holds_quotes_iff.mp hopening, holds_quotes_iff.mp hclosing, hvalue⟩⟩
  · intro cs value h
    obtain ⟨key, hkey, opening, closing, rest, rfl, hopening, hclosing, hvalue⟩ := h
    exact ⟨_, rest, by simp, takes_assetAttribute_iff.mpr ⟨key, hkey, opening, closing, value, rfl,
      holds_quotes_iff.mpr hopening, holds_quotes_iff.mpr hclosing, hvalue, rfl⟩⟩

/-- A text begins with an attribute whose value names an asset of the project itself. -/
def LocalAssetAt (cs : List Char) (value : String) : Prop :=
  AssetAt cs value ∧ ¬ (startsWith value "http" ∨ startsWith value "//")

/-! ### What the rules find -/

theorem exists_find {r : Rule} {stands : List Char → String → Prop} (hsep : r.pattern.Separate)
    (hreads : r.pattern.Reads stands) (content : String) :
    ∃ found, Occurrences stands content.toList found ∧
      r.find content = found.flatMap fun x => r.references [x.2] := by
  obtain ⟨found, hfound, hgroups⟩ := Pattern.exists_occurrences hsep hreads content.toList
  exact ⟨found, hfound, by rw [find, hgroups, List.flatMap_map]⟩

theorem exists_find_ofGroup {r : Rule} {stands : List Char → String → Prop}
    {make : String → Reference} (hsep : r.pattern.Separate) (hreads : r.pattern.Reads stands)
    (hmake : r.references = ofGroup make) (content : String) :
    ∃ found, Occurrences stands content.toList found ∧
      r.find content = found.map fun x => make x.2 := by
  obtain ⟨found, hfound, hfind⟩ := exists_find hsep hreads content
  refine ⟨found, hfound, ?_⟩
  rw [hfind, hmake, List.map_eq_flatMap]
  rfl

theorem flatMap_assetAttribute (found : List (Nat × String)) :
    (found.flatMap fun x => assetAttribute.references [x.2]) =
      (found.filter fun x => !(startsWith x.2 "http" || startsWith x.2 "//")).map
        fun x => .asset x.2 := by
  have hone : ∀ x : Nat × String, assetAttribute.references [x.2] =
      if !(startsWith x.2 "http" || startsWith x.2 "//") then [.asset x.2] else [] := by
    intro x
    have hrefs : assetAttribute.references [x.2] =
        if startsWith x.2 "http" || startsWith x.2 "//" then [] else [.asset x.2] := rfl
    rw [hrefs]
    cases startsWith x.2 "http" || startsWith x.2 "//" <;> rfl
  simp only [hone]
  exact flatMap_ite_singleton _ _ found

theorem exists_find_assetAttribute (content : String) :
    ∃ found, Occurrences LocalAssetAt content.toList found ∧
      assetAttribute.find content = found.map fun x => .asset x.2 := by
  obtain ⟨found, hfound, hfind⟩ := exists_find separate_assetAttribute reads_assetAttribute content
  rw [flatMap_assetAttribute] at hfind
  refine ⟨_, hfound.filter (fun value => !(startsWith value "http" || startsWith value "//"))
    fun cs value => ?_, hfind⟩
  simp [LocalAssetAt]

theorem occurrences_of_find (content : String) :
    (∃ found, Occurrences ImportAt content.toList found ∧
      useStatement.find content = found.map fun x => .classImport x.2) ∧
    (∃ found, Occurrences TagAt content.toList found ∧
      componentTag.find content = found.map fun x => .component x.2) ∧
    ∃ found, Occurrences LocalAssetAt content.toList found ∧
      assetAttribute.find content = found.map fun x => .asset x.2 :=
  ⟨exists_find_ofGroup separate_useStatement reads_useStatement rfl content,
    exists_find_ofGroup separate_componentTag reads_componentTag rfl content,
    exists_find_assetAttribute content⟩

end Rule

end UnusedAssets
