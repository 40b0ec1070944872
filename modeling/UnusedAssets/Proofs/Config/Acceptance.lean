import UnusedAssets.Proofs.CommandLine.JsonOutput
import UnusedAssets.Proofs.Toml.DistinctKeys

/-!
# Which configurations are accepted

A text is accepted as a configuration exactly if it is a TOML document whose members have the
shapes that `Acceptable` lists. What is read from it is what stands in the document: its two lists in
order, and the format and the script of its output (`parse_accepts`).
-/

namespace UnusedAssets.Config

open Text Toml

variable {ms : Members} {item : Item} {items : List Item} {s key : String} {place : Nat}
  {xs : List String} {c c' : Config} {o o' : OutputConfig} {m : String × Item}

def HasStrings (item : Item) (xs : List String) : Prop := items? item = some (xs.map .string)

/-- An output gives a text: a table under a key, an array at a place. -/
inductive Gives (key : String) (place : Nat) : Item → String → Prop
  | member {state : TableState} {ms : Members} {s : String} (h : (key, .string s) ∈ ms) :
      Gives key place (.table state ms) s
  | placed {item : Item} {items : List Item} {s : String} (hitems : items? item = some items)
      (h : items[place]? = some (.string s)) : Gives key place item s

def GivesFormat : Item → String → Prop := Gives "format" 0

def GivesScript : Item → String → Prop := Gives "script" 1

/-- An output is a table that gives texts to no other members than a format and a script, or an
array of at least two items, the first two of which are texts. -/
inductive IsOutput : Item → Prop
  | table {state : TableState} {ms : Members}
      (h : ∀ m ∈ ms, (m.1 = "format" ∨ m.1 = "script") ∧ ∃ s, m.2 = .string s) :
      IsOutput (.table state ms)
  | array {item : Item} {format script : String} {rest : List Item}
      (h : items? item = some (.string format :: .string script :: rest)) : IsOutput item

structure Acceptable (ms : Members) : Prop where
  known : ∀ m ∈ ms, m.1 = "ignore" ∨ m.1 = "exclude" ∨ m.1 = "output"
  ignore : ∀ item, ("ignore", item) ∈ ms → ∃ xs, HasStrings item xs
  exclude : ∀ item, ("exclude", item) ∈ ms → ∃ xs, HasStrings item xs
  output : ∀ item, ("output", item) ∈ ms → IsOutput item
  format : ∀ item f, ("output", item) ∈ ms → GivesFormat item f →
    CommandLine.Spells f "plain" ∨ CommandLine.Spells f "json"

/-- The list that a document has under a key; an empty one if the key is not there. -/
def Lists (ms : Members) (key : String) (xs : List String) : Prop :=
  (∃ item, (key, item) ∈ ms ∧ HasStrings item xs) ∨ key ∉ ms.map (·.1) ∧ xs = []

section Fold

variable {σ α : Type} {step : σ → String × Item → Except Fault σ} {a a' : σ}

/-- Members are read one after the other if each of them can be read, whatever came before. -/
theorem exists_foldlM_iff {P : String × Item → Prop}
    (hstep : ∀ a m, (∃ a', step a m = .ok a') ↔ P m) :
    (∃ a', ms.foldlM step a = .ok a') ↔ ∀ m ∈ ms, P m := by
  induction ms generalizing a with
  | nil => simp [pure, Except.pure]
  | cons m ms ih =>
    rw [List.foldlM_cons, List.forall_mem_cons, ← hstep a m]
    cases hm : step a m with
    | error fault => simp [bind, Except.bind]
    | ok a' =>
      rw [← ih (a := a')]
      simp [bind, Except.bind]

/-- A field that only the member under one key sets holds in the end what this member says. -/
theorem get_foldlM {read : Item → Except Fault α} {get : σ → Option α}
    (hget : ∀ a a' m, step a m = .ok a' →
      get a' = if m.1 = key then (read m.2).toOption else get a)
    (hkeys : (ms.map (·.1)).Nodup) (h : ms.foldlM step a = .ok a') :
    get a' = match ms.get? key with
      | none => get a
      | some item => (read item).toOption := by
  induction ms generalizing a with
  | nil =>
    obtain rfl := Except.ok.inj h
    rfl
  | cons m ms ih =>
    obtain ⟨key', item⟩ := m
    obtain ⟨hnew, hkeys⟩ := List.nodup_cons.mp hkeys
    rw [List.foldlM_cons] at h
    cases hm : step a (key', item) with
    | error fault => exact absurd h (by simp [hm, bind, Except.bind])
    | ok b =>
      rw [hm] at h
      rw [ih hkeys h, Members.get?_cons, hget a b _ hm]
      by_cases hkey : key' = key
      · subst hkey
        have hnone : Members.get? ms key' = none := Members.get?_eq_none_iff.mpr hnew
        simp only [hnone, ↓reduceIte]
      · simp only [hkey, ↓reduceIte]

end Fold

theorem readString_eq_ok_iff : readString item = .ok s ↔ item = .string s := by
  cases item <;> simp [readString]

theorem mapM_readString_eq_ok_iff : items.mapM readString = .ok xs ↔ items = xs.map .string := by
  induction items generalizing xs with
  | nil => cases xs <;> simp [pure, Except.pure]
  | cons item items ih =>
    rw [List.mapM_cons]
    cases hitem : readString item with
    | error fault =>
      have hother (s : String) : item ≠ .string s := fun h => by simp [h, readString] at hitem
      cases xs <;> simp [bind, Except.bind, hother]
    | ok x =>
      obtain rfl := readString_eq_ok_iff.mp hitem
      cases hrest : items.mapM readString with
      | error fault =>
        have hother (ys : List String) : items ≠ ys.map .string := fun h => by
          simp [ih.mpr h] at hrest
        cases xs <;> simp [bind, Except.bind, hother]
      | ok ys =>
        obtain rfl := ih.mp hrest
        have hinj : Function.Injective Item.string := fun _ _ h => Item.string.inj h
        rw [← List.map_cons, (List.map_injective_iff.mpr hinj).eq_iff]
        simp [bind, Except.bind, pure, Except.pure]

theorem readStrings_eq_ok_iff : readStrings item = .ok xs ↔ HasStrings item xs := by
  unfold readStrings HasStrings
  cases items? item with
  | none => simp
  | some items => simp [mapM_readString_eq_ok_iff]

theorem map_eq_ok_iff {α β : Type} {f : α → β} {x : Except Fault α} {b : β} :
    x.map f = .ok b ↔ ∃ a, x = .ok a ∧ f a = b := by
  cases x <;> simp [Except.map]

section Output

theorem exists_readOutputField_iff (o : OutputConfig) (m : String × Item) :
    (∃ o', readOutputField o m = .ok o') ↔
      (m.1 = "format" ∨ m.1 = "script") ∧ ∃ s, m.2 = .string s := by
  simp only [← readString_eq_ok_iff]
  unfold readOutputField
  cases readString m.2 with
  | error fault => split_ifs <;> simp [Except.map]
  | ok s => split_ifs with hformat hscript <;> simp [Except.map, *]

/-- A member of an output sets the field of its name and leaves the other. -/
theorem fields_of_readOutputField (h : readOutputField o m = .ok o') :
    o'.format = (if m.1 = "format" then (readString m.2).toOption else o.format) ∧
      o'.script = if m.1 = "script" then (readString m.2).toOption else o.script := by
  unfold readOutputField at h
  split_ifs at h with hformat hscript
  · obtain ⟨s, hs, rfl⟩ := map_eq_ok_iff.mp h
    simp [hs, hformat, Except.toOption]
  · obtain ⟨s, hs, rfl⟩ := map_eq_ok_iff.mp h
    simp [hs, hscript, Except.toOption]

theorem readOutput_array_eq_ok_iff : readOutput (.array items) = .ok o ↔
    ∃ format script rest, items = .string format :: .string script :: rest ∧
      o = ⟨some format, some script⟩ := by
  unfold readOutput
  match items with
  | [] => simp [items?]
  | [first] => cases hfirst : readString first <;> simp [items?, hfirst]
  | first :: second :: rest =>
    cases hfirst : readString first with
    | error fault =>
      have hother (s : String) : first ≠ .string s := fun h => by simp [h, readString] at hfirst
      simp [items?, hfirst, hother]
    | ok format =>
      obtain rfl := readString_eq_ok_iff.mp hfirst
      cases hsecond : readString second with
      | error fault =>
        have hother (s : String) : second ≠ .string s := fun h => by simp [h, readString] at hsecond
        simp [items?, hfirst, hsecond, hother, Except.map]
      | ok script =>
        obtain rfl := readString_eq_ok_iff.mp hsecond
        simp [items?, hfirst, hsecond, Except.map, eq_comm]

/-- An output that is no table is read by place. -/
theorem readOutput_eq_ok_iff_of_no_table (h : ∀ state ms, item ≠ .table state ms) :
    readOutput item = .ok o ↔ ∃ format script rest,
      items? item = some (.string format :: .string script :: rest) ∧
        o = ⟨some format, some script⟩ := by
  cases item with
  | table state ms => exact absurd rfl (h state ms)
  | array items => simpa [items?] using readOutput_array_eq_ok_iff
  | tables elements =>
    have hsame : readOutput (.tables elements) =
        readOutput (.array (elements.map (.table .opened))) := rfl
    rw [hsame, readOutput_array_eq_ok_iff]
    simp [items?]
  | string s => simp [readOutput, items?]
  | integer n => simp [readOutput, items?]
  | float x => simp [readOutput, items?]
  | boolean b => simp [readOutput, items?]
  | dateTime => simp [readOutput, items?]

theorem gives_table_iff {state : TableState} :
    Gives key place (.table state ms) s ↔ (key, .string s) ∈ ms := by
  constructor
  · intro h
    cases h with
    | member h => exact h
    | placed hitems _ => exact absurd hitems (by simp [items?])
  · exact .member

theorem gives_iff_of_no_table (h : ∀ state ms, item ≠ .table state ms)
    (hitems : items? item = some items) :
    Gives key place item s ↔ items[place]? = some (.string s) := by
  constructor
  · intro hgives
    cases hgives with
    | member _ => exact absurd rfl (h _ _)
    | placed hitems' hs => rwa [Option.some.inj (hitems.symm.trans hitems')]
  · exact .placed hitems

/-- The outputs that are read are those of the right shape. -/
theorem exists_readOutput_iff : (∃ o, readOutput item = .ok o) ↔ IsOutput item := by
  by_cases htable : ∃ state ms, item = .table state ms
  · obtain ⟨state, ms, rfl⟩ := htable
    refine (exists_foldlM_iff exists_readOutputField_iff).trans ⟨.table, fun hshape => ?_⟩
    cases hshape with
    | table hall => exact hall
    | array hitems => exact absurd hitems (by simp [items?])
  · have hother : ∀ state ms, item ≠ .table state ms := by simpa using htable
    simp only [readOutput_eq_ok_iff_of_no_table hother]
    constructor
    · rintro ⟨o, format, script, rest, hitems, -⟩
      exact .array hitems
    · intro hshape
      cases hshape with
      | table _ => exact absurd rfl (hother _ _)
      | @array _ format script rest hitems => exact ⟨_, format, script, rest, hitems, rfl⟩

/-- The text under a key of a table, if the field that is set by it holds what was read. -/
theorem eq_some_iff_mem (hkeys : (ms.map (·.1)).Nodup) {new : Option String}
    (hnew : new = match ms.get? key with
      | none => none
      | some item => (readString item).toOption) :
    new = some s ↔ (key, .string s) ∈ ms := by
  rw [hnew, ← Members.get?_eq_some_iff hkeys]
  cases ms.get? key with
  | none => simp
  | some item => cases item <;> simp [readString, Except.toOption]

/-- An output is read as it is given. -/
theorem gives_of_readOutput (h : item.Distinct) (ho : readOutput item = .ok o) :
    (∀ s, o.format = some s ↔ GivesFormat item s) ∧
      ∀ s, o.script = some s ↔ GivesScript item s := by
  by_cases htable : ∃ state ms, item = .table state ms
  · obtain ⟨state, ms, rfl⟩ := htable
    have hkeys := (Item.distinct_table_iff.mp h).keys
    have hformat := get_foldlM (fun _ _ _ hm => (fields_of_readOutputField hm).1) hkeys ho
    have hscript := get_foldlM (fun _ _ _ hm => (fields_of_readOutputField hm).2) hkeys ho
    exact ⟨fun s => (eq_some_iff_mem hkeys hformat).trans gives_table_iff.symm,
      fun s => (eq_some_iff_mem hkeys hscript).trans gives_table_iff.symm⟩
  · have hother : ∀ state ms, item ≠ .table state ms := by simpa using htable
    obtain ⟨format, script, rest, hitems, rfl⟩ := (readOutput_eq_ok_iff_of_no_table hother).mp ho
    simp [GivesFormat, GivesScript, gives_iff_of_no_table hother hitems]

end Output

section Document

theorem exists_readField_iff (c : Config) (m : String × Item) : (∃ c', readField c m = .ok c') ↔
    (m.1 = "ignore" ∨ m.1 = "exclude" ∨ m.1 = "output") ∧
      (m.1 = "ignore" → ∃ xs, HasStrings m.2 xs) ∧ (m.1 = "exclude" → ∃ xs, HasStrings m.2 xs) ∧
        (m.1 = "output" → IsOutput m.2) := by
  simp only [← readStrings_eq_ok_iff, ← exists_readOutput_iff]
  unfold readField
  split_ifs with hignore hexclude houtput
  · simp [hignore, map_eq_ok_iff]
  · simp [hexclude, map_eq_ok_iff]
  · simp [houtput, map_eq_ok_iff]
  · simp [hignore, hexclude, houtput]

/-- A member of a document sets the field of its name and leaves the others. -/
theorem fields_of_readField (h : readField c m = .ok c') :
    c'.ignore = (if m.1 = "ignore" then (readStrings m.2).toOption else c.ignore) ∧
      c'.exclude = (if m.1 = "exclude" then (readStrings m.2).toOption else c.exclude) ∧
        c'.output = if m.1 = "output" then (readOutput m.2).toOption else c.output := by
  unfold readField at h
  split_ifs at h with hignore hexclude houtput
  · obtain ⟨xs, hxs, rfl⟩ := map_eq_ok_iff.mp h
    simp [hxs, hignore, Except.toOption]
  · obtain ⟨xs, hxs, rfl⟩ := map_eq_ok_iff.mp h
    simp [hxs, hexclude, Except.toOption]
  · obtain ⟨o, ho, rfl⟩ := map_eq_ok_iff.mp h
    simp [ho, houtput, Except.toOption]

/-- The members that are read are those of the right shape, but for the names of formats. -/
theorem exists_ofMembers_iff : (∃ c, ofMembers ms = .ok c) ↔
    (∀ m ∈ ms, m.1 = "ignore" ∨ m.1 = "exclude" ∨ m.1 = "output") ∧
      (∀ item, ("ignore", item) ∈ ms → ∃ xs, HasStrings item xs) ∧
      (∀ item, ("exclude", item) ∈ ms → ∃ xs, HasStrings item xs) ∧
      ∀ item, ("output", item) ∈ ms → IsOutput item := by
  rw [ofMembers, exists_foldlM_iff exists_readField_iff]
  constructor
  · intro h
    exact ⟨fun m hm => (h m hm).1, fun item hm => (h _ hm).2.1 rfl,
      fun item hm => (h _ hm).2.2.1 rfl, fun item hm => (h _ hm).2.2.2 rfl⟩
  · rintro ⟨hknown, hignore, hexclude, houtput⟩ ⟨key, item⟩ hm
    refine ⟨hknown _ hm, ?_, ?_, ?_⟩
    · rintro rfl
      exact hignore item hm
    · rintro rfl
      exact hexclude item hm
    · rintro rfl
      exact houtput item hm

theorem checkFormat_eq_ok_iff : c.checkFormat = .ok c' ↔ c' = c ∧ ∀ s, c.format? = some s →
    CommandLine.Spells s "plain" ∨ CommandLine.Spells s "json" := by
  have hplain (s : String) : lowercase s = "plain" ↔ CommandLine.Spells s "plain" :=
    lowercase_eq_iff rfl
  have hjson (s : String) : lowercase s = "json" ↔ CommandLine.Spells s "json" :=
    lowercase_eq_iff rfl
  unfold checkFormat
  cases c.format? with
  | none => simp [eq_comm]
  | some s =>
    have hknown : (lowercase s == "plain" || lowercase s == "json") = true ↔
        CommandLine.Spells s "plain" ∨ CommandLine.Spells s "json" := by
      rw [Bool.or_eq_true, beq_iff_eq, beq_iff_eq, hplain, hjson]
    simp only [Option.some.injEq, forall_eq']
    split
    · next hspells =>
      rw [Except.ok.injEq, eq_comm]
      exact (and_iff_left (hknown.mp hspells)).symm
    · next hspells =>
      exact iff_of_false (by simp) fun h => hspells (hknown.mpr h.2)

theorem wantsJson_iff : c.wantsJson = true ↔
    ∃ s, c.format? = some s ∧ CommandLine.Spells s "json" := by
  have hjson (s : String) : equalsUpToCase s "json" = true ↔ CommandLine.Spells s "json" := by
    rw [equalsUpToCase_iff]
    exact lowercase_eq_iff rfl
  unfold wantsJson
  cases c.format? with
  | none => simp
  | some s => simp [hjson]

theorem read_eq_ok_iff {content : String} : read content = .ok c ↔ ∃ ms,
    Document.read? content = some ms ∧ ofMembers ms = .ok c ∧
      ∀ s, c.format? = some s → CommandLine.Spells s "plain" ∨ CommandLine.Spells s "json" := by
  unfold read
  cases Document.read? content with
  | none => simp
  | some ms =>
    cases hc : ofMembers ms with
    | error fault => simp [hc]
    | ok c' =>
      simp only [checkFormat_eq_ok_iff, Option.some.injEq, exists_eq_left', hc, Except.ok.injEq]
      constructor
      · rintro ⟨rfl, hspells⟩
        exact ⟨rfl, hspells⟩
      · rintro ⟨rfl, hspells⟩
        exact ⟨rfl, hspells⟩

theorem parse_eq_ok_iff {path content : String} : parse path content = .ok c ↔
    read content = .ok c := by
  unfold parse
  cases read content <;> simp

/-- The list that is read is the one that stands in the document. -/
theorem lists_getD {new : Option (List String)} (hread : ∀ item, (key, item) ∈ ms →
      ∃ xs, HasStrings item xs)
    (hnew : new = match ms.get? key with
      | none => none
      | some item => (readStrings item).toOption) : Lists ms key (new.getD []) := by
  subst hnew
  cases hget : ms.get? key with
  | none => exact .inr ⟨Members.get?_eq_none_iff.mp hget, rfl⟩
  | some item =>
    have hm := Members.mem_of_get? hget
    obtain ⟨xs, hxs⟩ := hread item hm
    refine .inl ⟨item, hm, ?_⟩
    simpa only [readStrings_eq_ok_iff.mpr hxs, Except.toOption, Option.getD_some] using hxs

variable (h : ms.Distinct) (hc : ofMembers ms = .ok c)

include h hc

theorem lists_settings : Lists ms "ignore" c.settings.ignores ∧
    Lists ms "exclude" c.settings.excludes := by
  obtain ⟨-, hignore, hexclude, -⟩ := exists_ofMembers_iff.mp ⟨c, hc⟩
  exact ⟨lists_getD hignore (get_foldlM (fun _ _ _ hm => (fields_of_readField hm).1) h.keys hc),
    lists_getD hexclude (get_foldlM (fun _ _ _ hm => (fields_of_readField hm).2.1) h.keys hc)⟩

/-- What the output gives is what the member of its name gives. -/
theorem bind_output_eq_some_iff {field : OutputConfig → Option String}
    {gives : Item → String → Prop}
    (hgives : ∀ item o, item.Distinct → readOutput item = .ok o →
      ∀ s, field o = some s ↔ gives item s) :
    c.output.bind field = some s ↔ ∃ item, ("output", item) ∈ ms ∧ gives item s := by
  have hnew := get_foldlM (fun _ _ _ hm => (fields_of_readField hm).2.2) h.keys hc
  obtain ⟨-, -, -, hshape⟩ := exists_ofMembers_iff.mp ⟨c, hc⟩
  rw [hnew]
  simp only [← Members.get?_eq_some_iff h.keys]
  cases hget : ms.get? "output" with
  | none => simp
  | some item =>
    have hm := Members.mem_of_get? hget
    obtain ⟨o, ho⟩ := exists_readOutput_iff.mpr (hshape item hm)
    simp [ho, Except.toOption, hgives item o (h.each _ hm) ho]

theorem format_eq_some_iff : c.format? = some s ↔
    ∃ item, ("output", item) ∈ ms ∧ GivesFormat item s :=
  bind_output_eq_some_iff h hc fun _ _ hitem ho => (gives_of_readOutput hitem ho).1

theorem scriptName_eq_some_iff : c.scriptName? = some s ↔
    ∃ item, ("output", item) ∈ ms ∧ GivesScript item s :=
  bind_output_eq_some_iff h hc fun _ _ hitem ho => (gives_of_readOutput hitem ho).2

end Document

theorem acceptable_iff (h : ms.Distinct) : Acceptable ms ↔ ∃ c, ofMembers ms = .ok c ∧
    ∀ s, c.format? = some s → CommandLine.Spells s "plain" ∨ CommandLine.Spells s "json" := by
  constructor
  · intro hms
    obtain ⟨c, hc⟩ := exists_ofMembers_iff.mpr ⟨hms.known, hms.ignore, hms.exclude, hms.output⟩
    refine ⟨c, hc, fun s hs => ?_⟩
    obtain ⟨item, hm, hgives⟩ := (format_eq_some_iff h hc).mp hs
    exact hms.format item s hm hgives
  · rintro ⟨c, hc, hspells⟩
    obtain ⟨known, ignore, exclude, output⟩ := exists_ofMembers_iff.mp ⟨c, hc⟩
    refine ⟨known, ignore, exclude, output, fun item s hm hgives => ?_⟩
    exact hspells s ((format_eq_some_iff h hc).mpr ⟨item, hm, hgives⟩)

theorem exists_parse_iff (path content : String) : (∃ c, parse path content = .ok c) ↔
    ∃ ms, Document.read? content = some ms ∧ Acceptable ms := by
  simp only [parse_eq_ok_iff, read_eq_ok_iff]
  constructor
  · rintro ⟨c, ms, hms, hc, hspells⟩
    exact ⟨ms, hms, (acceptable_iff (Document.distinct_of_read hms)).mpr ⟨c, hc, hspells⟩⟩
  · rintro ⟨ms, hms, hacceptable⟩
    obtain ⟨c, hc, hspells⟩ := (acceptable_iff (Document.distinct_of_read hms)).mp hacceptable
    exact ⟨c, ms, hms, hc, hspells⟩

/-- Which texts are accepted as configurations, what is read from them, and how all others fail. -/
theorem parse_accepts (path content : String) :
    ((∃ c, parse path content = .ok c) ↔
      ∃ ms, Document.read? content = some ms ∧ Acceptable ms) ∧
    (∀ c, parse path content = .ok c → ∃ ms, Document.read? content = some ms ∧ ms.Distinct ∧
      Lists ms "ignore" c.settings.ignores ∧ Lists ms "exclude" c.settings.excludes ∧
      (∀ script, c.scriptName? = some script ↔
        ∃ item, ("output", item) ∈ ms ∧ GivesScript item script) ∧
      (c.wantsJson = true ↔ ∃ item format, ("output", item) ∈ ms ∧ GivesFormat item format ∧
        CommandLine.Spells format "json")) ∧
    ∀ failure, parse path content = .error failure → ∃ detail, failure = .config path detail := by
  refine ⟨exists_parse_iff path content, fun c hparse => ?_, fun failure hparse => ?_⟩
  · obtain ⟨ms, hms, hc, -⟩ := read_eq_ok_iff.mp (parse_eq_ok_iff.mp hparse)
    have hdistinct := Document.distinct_of_read hms
    obtain ⟨hignore, hexclude⟩ := lists_settings hdistinct hc
    refine ⟨ms, hms, hdistinct, hignore, hexclude,
      fun script => scriptName_eq_some_iff hdistinct hc, ?_⟩
    rw [wantsJson_iff]
    simp only [format_eq_some_iff hdistinct hc]
    constructor
    · rintro ⟨format, ⟨item, hm, hgives⟩, hspells⟩
      exact ⟨item, format, hm, hgives, hspells⟩
    · rintro ⟨item, format, hm, hgives, hspells⟩
      exact ⟨format, ⟨item, hm, hgives⟩, hspells⟩
  · unfold parse at hparse
    split at hparse
    · next fault _ => exact ⟨fault.message, (Except.error.inj hparse).symm⟩
    · exact absurd hparse (by simp)

/-- An array is read by place, and what comes after the second place is not looked at. -/
example : parse "deadasset.toml" "output = ['JSON', 'x.sh', 1]" =
    .ok { output := some ⟨some "JSON", some "x.sh"⟩ } := by cbv

end UnusedAssets.Config
