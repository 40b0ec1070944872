import Mathlib.Data.List.Nodup
import UnusedAssets.Toml.Document

/-!
# Tables have each key once

Whatever is added to a document is added where its key is new, or takes the place of what was there.
So in a document that is read no table has a key twice, at any depth (`Document.distinct_of_read`).
-/

namespace UnusedAssets.Toml

/-- In an item no table has a key twice, at any depth. -/
inductive Item.Distinct : Item → Prop
  | string (s : String) : Distinct (.string s)
  | integer (n : Int) : Distinct (.integer n)
  | float (x : Binary64) : Distinct (.float x)
  | boolean (b : Bool) : Distinct (.boolean b)
  | dateTime : Distinct .dateTime
  | array {items : List Item} (each : ∀ x ∈ items, Distinct x) : Distinct (.array items)
  | table {state : TableState} {ms : List (String × Item)} (keys : (ms.map (·.1)).Nodup)
      (each : ∀ m ∈ ms, Distinct m.2) : Distinct (.table state ms)
  | tables {elements : List (List (String × Item))}
      (keys : ∀ ms ∈ elements, (ms.map (·.1)).Nodup)
      (each : ∀ ms ∈ elements, ∀ m ∈ ms, Distinct m.2) : Distinct (.tables elements)

/-- The members of a table in which no key stands twice, at any depth. -/
structure Members.Distinct (ms : Members) : Prop where
  keys : (ms.map (·.1)).Nodup
  each : ∀ m ∈ ms, m.2.Distinct

variable {ms inner : Members} {elements : List Members} {key : String} {path : List String}
  {item : Item} {state : TableState}

theorem Item.distinct_table_iff : (Item.table state ms).Distinct ↔ ms.Distinct := by
  constructor
  · intro h
    cases h with
    | table keys each => exact ⟨keys, each⟩
  · intro h
    exact .table h.keys h.each

theorem Item.distinct_tables_iff :
    (Item.tables elements).Distinct ↔ ∀ ms ∈ elements, Members.Distinct ms := by
  constructor
  · intro h
    cases h with
    | tables keys each => exact fun ms hms => ⟨keys ms hms, each ms hms⟩
  · intro h
    exact .tables (fun ms hms => (h ms hms).keys) fun ms hms => (h ms hms).each

namespace Members

theorem get?_cons (key' : String) : get? ((key', item) :: ms) key =
    if key' = key then some item else ms.get? key := by
  by_cases h : key' = key
  · simp [get?, h]
  · simp [get?, h]

theorem get?_eq_none_iff : ms.get? key = none ↔ key ∉ ms.map (·.1) := by
  rw [get?, Option.map_eq_none_iff, List.find?_eq_none]
  simp only [beq_iff_eq, List.mem_map, not_exists, not_and]

theorem mem_of_get? (h : ms.get? key = some item) : (key, item) ∈ ms := by
  obtain ⟨⟨key', item'⟩, hfind, rfl⟩ := Option.map_eq_some_iff.mp h
  obtain rfl : key' = key := by simpa using List.find?_some hfind
  exact List.mem_of_find?_eq_some hfind

/-- A key that stands once has the item that stands with it. -/
theorem get?_eq_some_iff (h : (ms.map (·.1)).Nodup) :
    ms.get? key = some item ↔ (key, item) ∈ ms := by
  refine ⟨mem_of_get?, fun hmem => ?_⟩
  cases hget : ms.get? key with
  | none => exact absurd (List.mem_map_of_mem hmem) (get?_eq_none_iff.mp hget)
  | some item' =>
    have hinj := List.inj_on_of_nodup_map h (mem_of_get? hget) hmem rfl
    rw [Prod.mk.injEq] at hinj
    rw [hinj.2]

namespace Distinct

theorem nil : Distinct [] := ⟨List.nodup_nil, fun _ hm => absurd hm List.not_mem_nil⟩

theorem of_get? (h : ms.Distinct) (hget : ms.get? key = some item) : item.Distinct :=
  h.each _ (mem_of_get? hget)

theorem concat (h : ms.Distinct) (hnew : ms.get? key = none) (hitem : item.Distinct) :
    Distinct (ms ++ [(key, item)]) := by
  constructor
  · rw [List.map_append, List.map_singleton, ← List.concat_eq_append, List.nodup_concat]
    exact ⟨get?_eq_none_iff.mp hnew, h.keys⟩
  · exact List.forall_mem_append.mpr ⟨h.each, by simpa using hitem⟩

theorem set (h : ms.Distinct) (hitem : item.Distinct) : Distinct (ms.set key item) := by
  constructor
  · have hkeys : (ms.set key item).map (·.1) = ms.map (·.1) := by
      rw [Members.set, List.map_map]
      refine List.map_congr_left fun m _ => ?_
      rw [Function.comp_apply]
      split
      · exact (‹m.1 = key›).symm
      · rfl
    rw [hkeys]
    exact h.keys
  · intro m hm
    obtain ⟨m', hm', rfl⟩ := List.mem_map.mp hm
    split
    · exact hitem
    · exact h.each m' hm'

theorem erase (h : ms.Distinct) : Distinct (ms.erase key) :=
  ⟨h.keys.sublist (List.filter_sublist.map _), fun m hm => h.each m (List.mem_filter.mp hm).1⟩

/-- A change that keeps the keys of one table distinct does so wherever it is made. -/
theorem updateAt {dotted : Bool} {change : TableState → Members → Option Members} {new : Members}
    (hchange : ∀ state inner new, Distinct inner → change state inner = some new → Distinct new)
    (h : ms.Distinct) (hnew : ms.updateAt dotted change state path = some new) : new.Distinct := by
  induction path generalizing state ms new with
  | nil => exact hchange state ms new h hnew
  | cons key path ih =>
    rw [Members.updateAt] at hnew
    split at hnew
    · next hnone =>
      obtain ⟨inner, hinner, rfl⟩ := Option.map_eq_some_iff.mp hnew
      exact h.concat hnone (Item.distinct_table_iff.mpr (ih nil hinner))
    · next state' inner hget =>
      split at hnew
      · exact absurd hnew (by simp)
      · obtain ⟨inner', hinner, rfl⟩ := Option.map_eq_some_iff.mp hnew
        have hold := Item.distinct_table_iff.mp (h.of_get? hget)
        exact h.set (Item.distinct_table_iff.mpr (ih hold hinner))
    · next elements hget =>
      have hold := Item.distinct_tables_iff.mp (h.of_get? hget)
      split at hnew
      · exact absurd hnew (by simp)
      · next last hlast =>
        obtain ⟨last', hinner, rfl⟩ := Option.map_eq_some_iff.mp hnew
        refine h.set (Item.distinct_tables_iff.mpr (List.forall_mem_append.mpr ⟨?_, ?_⟩))
        · exact fun ms hms => hold ms (List.dropLast_subset _ hms)
        · simpa using ih (hold last (List.mem_of_getLast? hlast)) hinner
    · exact absurd hnew (by simp)

theorem put? {new : Members} (h : ms.Distinct) (hitem : item.Distinct)
    (hnew : ms.put? state path key item = some new) : new.Distinct := by
  refine h.updateAt (fun state inner new hinner hput => ?_) hnew
  split at hput
  · exact absurd hput (by simp)
  · split at hput
    · exact absurd hput (by simp)
    · next hget =>
      obtain rfl := Option.some.inj hput
      exact hinner.concat (by simpa using hget) hitem

theorem assignAll {as : List Assignment} {new : Members} (h : ms.Distinct)
    (has : ∀ a ∈ as, a.item.Distinct) (hnew : ms.assignAll state as = some new) :
    new.Distinct := by
  induction as generalizing ms with
  | nil =>
    obtain rfl := Option.some.inj hnew
    exact h
  | cons a as ih =>
    rw [Members.assignAll] at hnew
    split at hnew
    · exact absurd hnew (by simp)
    · next ms' hput =>
      obtain ⟨ha, has⟩ := List.forall_mem_cons.mp has
      exact ih (h.put? ha hput) has hnew

theorem membersAt (h : ms.Distinct) (path : List String) : (Members.membersAt path ms).Distinct := by
  induction path generalizing ms with
  | nil => exact h
  | cons key path ih =>
    rw [Members.membersAt]
    split
    · next state inner hget => exact ih (Item.distinct_table_iff.mp (h.of_get? hget))
    · next elements hget =>
      have hold := Item.distinct_tables_iff.mp (h.of_get? hget)
      cases hlast : elements.getLast? with
      | none => exact ih nil
      | some last => exact ih (hold last (List.mem_of_getLast? hlast))
    · exact nil

end Distinct

end Members

section Readers

variable {read : Reader Item} {cs rest : List Char}

theorem distinct_of_scalar (h : scalar cs = some (item, rest)) : item.Distinct := by
  unfold scalar at h
  split at h
  · cases h
    exact .boolean true
  · cases h
    exact .boolean false
  · split at h
    · next s left _ =>
      cases h
      exact .string s
    · unfold numeric at h
      split at h
      · cases h
        exact .dateTime
      · split at h
        · cases h
          exact .float _
        · obtain ⟨r, -, hr⟩ := Option.map_eq_some_iff.mp h
          cases hr
          exact .integer _

variable (hread : ∀ cs x rest, read cs = some (x, rest) → x.Distinct)

include hread

theorem distinct_of_arrayRest {items : List Item} (h : arrayRest read cs = some (items, rest)) :
    ∀ x ∈ items, x.Distinct := by
  fun_induction arrayRest read cs generalizing items rest with
  | case1 => exact absurd h (by simp)
  | case2 =>
    cases h
    exact fun x hx => absurd hx List.not_mem_nil
  | case3 => exact absurd h (by simp)
  | case4 _ _ _ _ x left hx =>
    cases h
    exact List.forall_mem_singleton.mpr (hread _ _ _ hx)
  | case5 _ _ _ _ x left hx _ _ _ ih =>
    obtain ⟨⟨more, left⟩, hmore, hitems⟩ := Option.map_eq_some_iff.mp h
    cases hitems
    exact List.forall_mem_cons.mpr ⟨hread _ _ _ hx, ih hmore⟩
  | case6 => exact absurd h (by simp)
  | case7 => exact absurd h (by simp)

theorem distinct_of_assignment {a : Assignment} (h : assignment read cs = some (a, rest)) :
    a.item.Distinct := by
  unfold assignment at h
  split at h
  · obtain ⟨⟨x, left⟩, hx, ha⟩ := Option.map_eq_some_iff.mp h
    cases ha
    exact hread _ _ _ hx
  · exact absurd h (by simp)

theorem distinct_of_bracedRest {as : List Assignment} (h : bracedRest read cs = some (as, rest)) :
    ∀ a ∈ as, a.item.Distinct := by
  fun_induction bracedRest read cs generalizing as rest with
  | case1 => exact absurd h (by simp)
  | case2 _ a left ha =>
    cases h
    exact List.forall_mem_singleton.mpr (distinct_of_assignment hread ha)
  | case3 _ a left ha _ _ _ ih =>
    obtain ⟨⟨more, left⟩, hmore, has⟩ := Option.map_eq_some_iff.mp h
    cases has
    exact List.forall_mem_cons.mpr ⟨distinct_of_assignment hread ha, ih hmore⟩
  | case4 => exact absurd h (by simp)
  | case5 => exact absurd h (by simp)

theorem distinct_of_braced (h : braced read cs = some (item, rest)) : item.Distinct := by
  unfold braced at h
  split at h
  · cases h
    exact Item.distinct_table_iff.mpr .nil
  · split at h
    · exact absurd h (by simp)
    · next as left has =>
      obtain ⟨ms, hms, hitem⟩ := Option.map_eq_some_iff.mp h
      cases hitem
      have hall := distinct_of_bracedRest hread has
      exact Item.distinct_table_iff.mpr (Members.Distinct.nil.assignAll hall hms)

end Readers

theorem distinct_of_value {depth : Nat} {cs rest : List Char}
    (h : value depth cs = some (item, rest)) : item.Distinct := by
  induction depth generalizing cs item rest with
  | zero => exact distinct_of_scalar h
  | succ depth ih =>
    unfold value at h
    split at h
    · obtain ⟨⟨items, left⟩, hitems, hitem⟩ := Option.map_eq_some_iff.mp h
      cases hitem
      exact .array (distinct_of_arrayRest (fun _ _ _ => ih) hitems)
    · exact distinct_of_braced (fun _ _ _ => ih) h
    · exact distinct_of_scalar h

namespace Document

variable {s : Section} {cs rest : List Char} {found : Section ⊕ Assignment}
  {new table : Members}

/-- A line brings a header, without assignments, or an assignment of a value. -/
theorem distinct_of_line (h : line cs = some (found, rest)) :
    ∀ a, found = .inr a → a.item.Distinct := by
  rintro a rfl
  unfold line at h
  split at h
  · obtain ⟨r, -, hr⟩ := Option.map_eq_some_iff.mp h
    cases hr
  · obtain ⟨r, -, hr⟩ := Option.map_eq_some_iff.mp h
    cases hr
  · split at h
    · exact absurd h (by simp)
    · next a' left ha =>
      obtain ⟨next, -, hr⟩ := Option.map_eq_some_iff.mp h
      cases hr
      exact distinct_of_assignment (fun _ _ _ => distinct_of_value) ha

theorem distinct_of_lines {all : List (Section ⊕ Assignment)} (h : lines cs = some all) :
    ∀ a, .inr a ∈ all → a.item.Distinct := by
  fun_induction lines cs generalizing all with
  | case1 =>
    cases h
    exact fun a ha => absurd ha List.not_mem_nil
  | case2 => exact absurd h (by simp)
  | case3 _ found left _ _ next hnext =>
    rename_i ih
    obtain ⟨more, hmore, rfl⟩ := Option.map_eq_some_iff.mp h
    intro a ha
    rcases List.mem_append.mp ha with ha | ha
    · obtain rfl : found = some (.inr a) := Option.mem_toList.mp ha
      dsimp only [next] at hnext
      split at hnext
      case h_4 =>
        obtain ⟨⟨_, _⟩, hline, hfound⟩ := Option.map_eq_some_iff.mp hnext
        cases hfound
        exact distinct_of_line hline a rfl
      all_goals
        obtain ⟨_, -, hfound⟩ := Option.map_eq_some_iff.mp hnext
        cases hfound
    · exact ih hmore a ha
  | case4 => exact absurd h (by simp)

theorem distinct_of_sections {all : List (Section ⊕ Assignment)}
    (h : ∀ a, .inr a ∈ all → a.item.Distinct) :
    (∀ a ∈ (sections all).1, a.item.Distinct) ∧
      ∀ s ∈ (sections all).2, ∀ a ∈ s.assignments, a.item.Distinct := by
  induction all with
  | nil => simp [sections]
  | cons found all ih =>
    obtain ⟨hfirst, hothers⟩ := ih fun a ha => h a (List.mem_cons_of_mem _ ha)
    cases found with
    | inr a =>
      refine ⟨List.forall_mem_cons.mpr ⟨h a List.mem_cons_self, hfirst⟩, hothers⟩
    | inl s =>
      exact ⟨fun a ha => absurd ha List.not_mem_nil, List.forall_mem_cons.mpr ⟨hfirst, hothers⟩⟩

theorem distinct_of_openTable {start : Members} (h : ms.Distinct)
    (hopen : openTable s ms = some (new, start)) : new.Distinct ∧ start.Distinct := by
  have hfound := h.membersAt s.path
  unfold openTable at hopen
  dsimp only at hopen
  split at hopen
  · split at hopen
    · exact absurd hopen (by simp)
    · next ms' hsame =>
      cases hopen
      refine ⟨h.updateAt (fun _ inner new hinner hsome => ?_) hsame, .nil⟩
      obtain rfl := Option.some.inj hsome
      exact hinner
  · next inner hget =>
    split at hopen
    · exact absurd hopen (by simp)
    · next ms' herased =>
      cases hopen
      refine ⟨h.updateAt (fun _ inner new hinner hsome => ?_) herased,
        Item.distinct_table_iff.mp (hfound.of_get? hget)⟩
      obtain rfl := Option.some.inj hsome
      exact hinner.erase
  · exact absurd hopen (by simp)

theorem distinct_of_closeTable (h : ms.Distinct) (htable : table.Distinct)
    (hclose : closeTable s table ms = some new) : new.Distinct := by
  refine h.updateAt (fun _ outer new houter hput => ?_) hclose
  split at hput
  · next hnone =>
    obtain rfl := Option.some.inj hput
    exact houter.concat hnone (Item.distinct_table_iff.mpr htable)
  · exact absurd hput (by simp)

theorem distinct_of_openTables (h : ms.Distinct) (hopen : openTables s ms = some new) :
    new.Distinct := by
  refine h.updateAt (fun _ outer new houter hput => ?_) hopen
  split at hput
  · next hnone =>
    obtain rfl := Option.some.inj hput
    exact houter.concat hnone (Item.distinct_tables_iff.mpr fun _ hms => absurd hms List.not_mem_nil)
  · obtain rfl := Option.some.inj hput
    exact houter
  · exact absurd hput (by simp)

theorem distinct_of_closeTables (h : ms.Distinct) (htable : table.Distinct)
    (hclose : closeTables s table ms = some new) : new.Distinct := by
  refine h.updateAt (fun _ outer new houter hput => ?_) hclose
  split at hput
  · next elements hget =>
    obtain rfl := Option.some.inj hput
    have hold := Item.distinct_tables_iff.mp (houter.of_get? hget)
    exact houter.set (Item.distinct_tables_iff.mpr
      (List.forall_mem_append.mpr ⟨hold, List.forall_mem_singleton.mpr htable⟩))
  · exact absurd hput (by simp)

/-- One more section keeps the keys of a document distinct. -/
theorem distinct_of_addSection (h : ms.Distinct) (hs : ∀ a ∈ s.assignments, a.item.Distinct)
    (hnew : addSection ms s = some new) : new.Distinct := by
  unfold addSection at hnew
  split at hnew
  · split at hnew
    · exact absurd hnew (by simp)
    · next outer hopen =>
      split at hnew
      · exact absurd hnew (by simp)
      · next table htable =>
        exact distinct_of_closeTables (distinct_of_openTables h hopen)
          (Members.Distinct.nil.assignAll hs htable) hnew
  · split at hnew
    · exact absurd hnew (by simp)
    · next outer start hopen =>
      obtain ⟨houter, hstart⟩ := distinct_of_openTable h hopen
      split at hnew
      · exact absurd hnew (by simp)
      · next table htable =>
        exact distinct_of_closeTable houter (hstart.assignAll hs htable) hnew

theorem distinct_of_addSections {all : List Section} (h : ms.Distinct)
    (hall : ∀ s ∈ all, ∀ a ∈ s.assignments, a.item.Distinct)
    (hnew : all.foldlM addSection ms = some new) : new.Distinct := by
  induction all generalizing ms with
  | nil =>
    obtain rfl := Option.some.inj hnew
    exact h
  | cons s all ih =>
    obtain ⟨hs, hall⟩ := List.forall_mem_cons.mp hall
    obtain ⟨ms', hfirst, hrest⟩ := Option.bind_eq_some_iff.mp hnew
    exact ih (distinct_of_addSection h hs hfirst) hall hrest

/-- In a document no table has a key twice, at any depth. -/
theorem distinct_of_read {text : String} (h : read? text = some ms) : ms.Distinct := by
  unfold read? at h
  dsimp only at h
  split at h
  · exact absurd h (by simp)
  · next found hlines =>
    obtain ⟨hfirst, hothers⟩ := distinct_of_sections (distinct_of_lines hlines)
    split at h
    · exact absurd h (by simp)
    · next start hstart =>
      exact distinct_of_addSections (Members.Distinct.nil.assignAll hfirst hstart) hothers h

end Document

end UnusedAssets.Toml
