import Mathlib.Data.List.Infix
import UnusedAssets.Proofs.Pattern.Texts

/-!
# Searching for a pattern

A search goes on behind each match, so a match hides those that begin inside it. It hides none if no
text of the pattern begins inside another (`Pattern.Separate`): then the search finds what there is
to be found at every place of the text (`findAll_eq_filterMap_tails`). `Occurrences` lists what
stands in a text with its places, and `exists_occurrences` ties it to the search.
-/

namespace UnusedAssets

variable {α β : Type} {stands : List Char → α → Prop} {cs : List Char} {found : List (Nat × α)}
  {a : α} {c : Char}

/-- What stands at the places of a text, from left to right. -/
structure Occurrences (stands : List Char → α → Prop) (cs : List Char)
    (found : List (Nat × α)) : Prop where
  ascending : found.Pairwise fun x y => x.1 < y.1
  mem_iff : ∀ place a, (place, a) ∈ found ↔ stands (cs.drop place) a

namespace Occurrences

def behind (found : List (Nat × α)) : List (Nat × α) := found.map fun x => (x.1 + 1, x.2)

theorem mem_behind_iff {x : Nat × α} :
    x ∈ behind found ↔ ∃ place, x.1 = place + 1 ∧ (place, x.2) ∈ found := by
  rw [behind, List.mem_map]
  constructor
  · intro h
    obtain ⟨y, hy, rfl⟩ := h
    exact ⟨y.1, rfl, hy⟩
  · intro h
    obtain ⟨place, hplace, hmem⟩ := h
    exact ⟨_, hmem, Prod.ext hplace.symm rfl⟩

theorem ascending_behind (h : found.Pairwise fun x y => x.1 < y.1) :
    (behind found).Pairwise fun x y => x.1 < y.1 :=
  List.pairwise_map.mpr (h.imp fun hlt => Nat.succ_lt_succ hlt)

theorem map_behind (f : α → β) :
    ((behind found).map fun x => f x.2) = found.map fun x => f x.2 := by
  simp [behind]

theorem nil (h : ∀ a, ¬ stands [] a) : Occurrences stands [] [] where
  ascending := .nil
  mem_iff place a := by simpa using h a

theorem cons_of_none (hfound : Occurrences stands cs found) (h : ∀ a, ¬ stands (c :: cs) a) :
    Occurrences stands (c :: cs) (behind found) where
  ascending := ascending_behind hfound.ascending
  mem_iff place a := by
    rw [mem_behind_iff]
    cases place with
    | zero => simpa using h a
    | succ place => simp [hfound.mem_iff]

theorem cons_of_one (hfound : Occurrences stands cs found)
    (h : ∀ b, stands (c :: cs) b ↔ b = a) :
    Occurrences stands (c :: cs) ((0, a) :: behind found) where
  ascending := by
    refine List.pairwise_cons.mpr ⟨fun x hx => ?_, ascending_behind hfound.ascending⟩
    obtain ⟨place, hplace, -⟩ := mem_behind_iff.mp hx
    omega
  mem_iff place b := by
    rw [List.mem_cons, mem_behind_iff]
    cases place with
    | zero => simp [h b]
    | succ place => simp [hfound.mem_iff]

theorem filter (hfound : Occurrences stands cs found) (keep : α → Bool)
    {stands' : List Char → α → Prop} (h : ∀ s a, stands' s a ↔ stands s a ∧ keep a = true) :
    Occurrences stands' cs (found.filter (keep ·.2)) where
  ascending := hfound.ascending.filter _
  mem_iff place a := by rw [List.mem_filter, hfound.mem_iff, h]

end Occurrences

namespace Pattern

variable {p : Pattern} {u rest : List Char}

/-- Every text of a pattern has a character, and none begins inside another. -/
structure Separate (p : Pattern) : Prop where
  ne_nil : ∀ {w groups}, p.Takes w groups → w ≠ []
  not_inside : ∀ {u v w rest rest' groups groups'}, p.Takes (u ++ v) groups → u ≠ [] → v ≠ [] →
    p.Takes w groups' → v ++ rest ≠ w ++ rest'

theorem filterMap_tails_append {f : List Char → Option α}
    (h : ∀ v, v ≠ [] → v <:+ u → f (v ++ rest) = none) :
    (u ++ rest).tails.filterMap f = rest.tails.filterMap f := by
  induction u with
  | nil => rfl
  | cons c u ih =>
    have hc : f (c :: (u ++ rest)) = none := h (c :: u) (by simp) List.suffix_rfl
    rw [List.cons_append, List.tails_cons, List.filterMap_cons_none hc]
    exact ih fun v hv hvu => h v hv (hvu.trans (List.suffix_cons c u))

def groups? (p : Pattern) (cs : List Char) : Option (List String) := (p.match? cs).map (·.1)

theorem groups?_eq_none_iff :
    p.groups? cs = none ↔ ∀ w rest groups, cs = w ++ rest → ¬ p.Takes w groups := by
  rw [groups?, Option.map_eq_none_iff, match?_eq_none_iff]

theorem groups?_of_match? {m : List String × List Char} (h : p.match? cs = some m) :
    p.groups? cs = some m.1 := by
  rw [groups?, h, Option.map_some]

theorem groups?_nil (h : p.Separate) : p.groups? [] = none := by
  rw [groups?_eq_none_iff]
  intro w rest groups hw htakes
  exact h.ne_nil htakes (List.append_eq_nil_iff.mp hw.symm).1

theorem groups?_inside (h : p.Separate) {groups : List String} {v : List Char}
    (htakes : p.Takes (c :: u) groups) (hne : v ≠ []) (hv : v <:+ u) :
    p.groups? (v ++ rest) = none := by
  obtain ⟨l, rfl⟩ := hv
  rw [groups?_eq_none_iff]
  intro w rest' groups' hsame htakes'
  exact h.not_inside (u := c :: l) htakes (by simp) hne htakes' hsame

theorem findAll_eq_filterMap_tails (h : p.Separate) (cs : List Char) :
    p.findAll cs = cs.tails.filterMap p.groups? := by
  induction cs using findAll.induct p with
  | case1 =>
    have hnone := groups?_nil h
    rw [groups?] at hnone
    simp [findAll, groups?, hnone]
  | case2 c cs hm ih =>
    rw [findAll, hm, List.tails_cons, List.filterMap_cons_none (by rw [groups?, hm]; rfl), ih]
  | case3 c cs groups rest hm hlt ih =>
    obtain ⟨w, hcs, htakes⟩ := takes_of_match? hm
    obtain ⟨d, u, rfl⟩ := List.exists_cons_of_ne_nil (h.ne_nil htakes)
    obtain ⟨rfl, hrest⟩ := List.cons.inj hcs
    have hhidden : cs.tails.filterMap p.groups? = rest.tails.filterMap p.groups? := by
      rw [hrest]
      exact filterMap_tails_append fun v hne hv => groups?_inside h htakes hne hv
    rw [findAll, hm, List.tails_cons, List.filterMap_cons_some (groups?_of_match? hm), hhidden, ← ih]
    exact if_pos hlt
  | case4 c cs groups rest hm hle ih =>
    obtain ⟨w, hcs, htakes⟩ := takes_of_match? hm
    have hlen := congrArg List.length hcs
    have hw := List.length_pos_of_ne_nil (h.ne_nil htakes)
    rw [List.length_append] at hlen
    omega

/-- A match has one group, with what stands at its place. -/
structure Reads (p : Pattern) (stands : List Char → String → Prop) : Prop where
  groups_of_stands : ∀ {cs text}, stands cs text → p.groups? cs = some [text]
  stands_of_match : ∀ {cs m}, p.match? cs = some m → ∃ text, stands cs text

theorem Reads.of_takes {stands : List Char → String → Prop}
    (htakes : ∀ {w groups}, p.Takes w groups →
      ∃ text, groups = [text] ∧ ∀ rest, stands (w ++ rest) text)
    (hstands : ∀ {cs text}, stands cs text → ∃ w rest, cs = w ++ rest ∧ p.Takes w [text])
    (huniq : ∀ {cs text text'}, stands cs text → stands cs text' → text = text') :
    p.Reads stands where
  groups_of_stands := by
    intro cs text htext
    obtain ⟨w, rest, rfl, hw⟩ := hstands htext
    obtain ⟨m, hm⟩ := exists_match?_of_takes hw rest
    obtain ⟨w', hcs, hw'⟩ := takes_of_match? hm
    obtain ⟨text', hgroups, htext'⟩ := htakes hw'
    have hsame : text' = text := huniq (hcs ▸ htext' m.2) htext
    rw [groups?_of_match? hm, hgroups, hsame]
  stands_of_match := by
    intro cs m hm
    obtain ⟨w, rfl, hw⟩ := takes_of_match? hm
    obtain ⟨text, -, htext⟩ := htakes hw
    exact ⟨text, htext m.2⟩

theorem exists_occurrences {stands : List Char → String → Prop} (hsep : p.Separate)
    (hreads : p.Reads stands) (cs : List Char) :
    ∃ found, Occurrences stands cs found ∧ p.findAll cs = found.map fun x => [x.2] := by
  rw [findAll_eq_filterMap_tails hsep]
  induction cs with
  | nil =>
    refine ⟨[], .nil fun text htext => ?_, by simp [groups?_nil hsep]⟩
    simpa [groups?_nil hsep] using hreads.groups_of_stands htext
  | cons c cs ih =>
    obtain ⟨found, hfound, hmap⟩ := ih
    rw [← Occurrences.map_behind fun text => [text]] at hmap
    rw [List.tails_cons]
    cases hm : p.match? (c :: cs) with
    | none =>
      have hnone : p.groups? (c :: cs) = none := by rw [groups?, hm, Option.map_none]
      refine ⟨_, hfound.cons_of_none fun text htext => ?_, ?_⟩
      · simpa [hnone] using hreads.groups_of_stands htext
      · rw [List.filterMap_cons_none hnone, hmap]
    | some m =>
      obtain ⟨text, htext⟩ := hreads.stands_of_match hm
      have hgroups := hreads.groups_of_stands htext
      have honly : ∀ other, stands (c :: cs) other ↔ other = text := by
        refine fun other => ⟨fun hother => ?_, fun h => h ▸ htext⟩
        simpa [hgroups] using (hreads.groups_of_stands hother).symm
      refine ⟨_, hfound.cons_of_one honly, ?_⟩
      rw [List.filterMap_cons_some hgroups, hmap, List.map_cons]

end Pattern

end UnusedAssets
