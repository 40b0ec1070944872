import Mathlib.Data.List.Infix
import UnusedAssets.Proofs.Pattern.Search

/-!
# The course of a search

A search looks for a match at some places of a text and passes over the others. It comes to a place
exactly if none of the matches that it meets before begins in front of the place and ends behind it
(`comesTo_append_iff`), and what it finds from that place on is then the end of what it finds in all
(`ComesTo.findAll_suffix`). Whatever it finds is a match of some part of the text
(`exists_takes_of_mem_findAll`), and `matched` keeps this part beside what is found.
-/

namespace UnusedAssets

namespace Pattern

variable {p : Pattern} {c : Char} {cs rest rest' u v : List Char} {groups : List String}

/-- Where the search goes on after it has looked at a text that begins with `c`. -/
def next (p : Pattern) (c : Char) (cs : List Char) : List Char :=
  match p.match? (c :: cs) with
  | none => cs
  | some m => if m.2.length < (c :: cs).length then m.2 else cs

theorem findAll_cons :
    p.findAll (c :: cs) = (p.groups? (c :: cs)).toList ++ p.findAll (p.next c cs) := by
  rw [findAll, groups?, next]
  cases p.match? (c :: cs) with
  | none => rfl
  | some m =>
    simp only [Option.map_some, Option.toList_some, List.singleton_append]
    split <;> rfl

theorem suffix_of_match? (h : p.match? cs = some (groups, rest)) : rest <:+ cs := by
  obtain ⟨w, rfl, -⟩ := takes_of_match? h
  exact List.suffix_append w rest

theorem next_of_match? (h : p.match? (c :: cs) = some (groups, rest))
    (hlt : rest.length < (c :: cs).length) : p.next c cs = rest := by
  rw [next, h]
  exact if_pos hlt

theorem findAll_of_match? (h : p.match? (u ++ rest) = some (groups, rest)) (hne : u ≠ []) :
    p.findAll (u ++ rest) = groups :: p.findAll rest := by
  obtain ⟨c, u, rfl⟩ := List.exists_cons_of_ne_nil hne
  rw [List.cons_append] at h ⊢
  have hlt : rest.length < (c :: (u ++ rest)).length := by
    rw [List.length_cons, List.length_append]
    omega
  have hnext : p.next c (u ++ rest) = rest := next_of_match? h hlt
  rw [findAll_cons, hnext, groups?_of_match? h]
  rfl

theorem findAll_append_of_none (h : ∀ v, v ≠ [] → v <:+ u → p.match? (v ++ rest) = none) :
    p.findAll (u ++ rest) = p.findAll rest := by
  induction u with
  | nil => rfl
  | cons c u ih =>
    have hc : p.match? (c :: (u ++ rest)) = none := h (c :: u) (by simp) List.suffix_rfl
    rw [List.cons_append, findAll, hc]
    exact ih fun v hne hv => h v hne (hv.trans (List.suffix_cons c u))

theorem next_suffix (p : Pattern) (c : Char) (cs : List Char) : p.next c cs <:+ cs := by
  unfold next
  split
  · exact List.suffix_rfl
  · next m hm =>
    split
    · next hlt =>
      rcases List.suffix_cons_iff.mp (suffix_of_match? hm) with heq | hsuffix
      · rw [heq] at hlt
        exact absurd hlt (Nat.lt_irrefl _)
      · exact hsuffix
    · exact List.suffix_rfl

theorem exists_takes_of_mem_findAll (h : groups ∈ p.findAll cs) :
    ∃ w, w <:+: cs ∧ p.Takes w groups := by
  have hhere : ∀ {cs m}, p.match? cs = some m → ∃ w, w <:+: cs ∧ p.Takes w m.1 := by
    intro cs m hm
    obtain ⟨w, rfl, hw⟩ := takes_of_match? hm
    exact ⟨w, (List.prefix_append w m.2).isInfix, hw⟩
  have hlater : ∀ {c cs rest}, rest <:+ cs → (∃ w, w <:+: rest ∧ p.Takes w groups) →
      ∃ w, w <:+: c :: cs ∧ p.Takes w groups := by
    intro c cs rest hrest hw
    obtain ⟨w, hw, htakes⟩ := hw
    exact ⟨w, hw.trans (hrest.trans (List.suffix_cons c cs)).isInfix, htakes⟩
  induction cs using findAll.induct p with
  | case1 =>
    rw [findAll, Option.mem_toList, Option.map_eq_some_iff] at h
    obtain ⟨m, hm, rfl⟩ := h
    exact hhere hm
  | case2 c cs hm ih =>
    rw [findAll, hm] at h
    exact hlater List.suffix_rfl (ih h)
  | case3 c cs groups' rest hm hlt ih =>
    rw [findAll, hm] at h
    simp only [if_pos hlt, List.mem_cons] at h
    rcases h with rfl | h
    · exact hhere hm
    · exact hlater (next_of_match? hm hlt ▸ next_suffix p c cs) (ih h)
  | case4 c cs groups' rest hm hle ih =>
    rw [findAll, hm] at h
    simp only [if_neg hle, List.mem_cons] at h
    rcases h with rfl | h
    · exact hhere hm
    · exact hlater List.suffix_rfl (ih h)

/-- The matches from left to right, each with its text and the texts of its groups. -/
def matched (p : Pattern) : List Char → List (String × List String)
  | [] => ((p.match? []).map fun m => ("", m.1)).toList
  | c :: cs =>
    match p.match? (c :: cs) with
    | none => matched p cs
    | some (groups, rest) =>
      (taken (c :: cs) rest, groups) ::
        if rest.length < (c :: cs).length then matched p rest else matched p cs
termination_by cs => cs.length
decreasing_by all_goals simp only [List.length_cons] at *; omega

theorem findAll_eq_map_matched (cs : List Char) : p.findAll cs = (p.matched cs).map (·.2) := by
  induction cs using findAll.induct p with
  | case1 =>
    rw [findAll, matched]
    cases p.match? [] <;> rfl
  | case2 c cs hm ih => rw [findAll, matched, hm, ih]
  | case3 c cs groups rest hm hlt ih =>
    rw [findAll, matched, hm]
    simp only [if_pos hlt, List.map_cons, ih]
  | case4 c cs groups rest hm hle ih =>
    rw [findAll, matched, hm]
    simp only [if_neg hle, List.map_cons, ih]

/-- If each match is the text of some value and has its groups, so are all that a search meets. -/
theorem exists_matched {α : Type} {text : α → String} {groupsOf : α → List String}
    (h : ∀ {cs m}, p.match? cs = some m → ∃ a, cs = (text a).toList ++ m.2 ∧ m.1 = groupsOf a)
    (cs : List Char) :
    ∃ found : List α, p.matched cs = found.map fun a => (text a, groupsOf a) := by
  have hmatch : ∀ {cs m}, p.match? cs = some m →
      ∃ a, (taken cs m.2, m.1) = (text a, groupsOf a) := by
    intro cs m hm
    obtain ⟨a, hcs, hgroups⟩ := h hm
    exact ⟨a, by rw [hgroups, hcs, taken_append, String.ofList_toList]⟩
  induction cs using findAll.induct p with
  | case1 =>
    rw [matched]
    cases hm : p.match? [] with
    | none => exact ⟨[], rfl⟩
    | some m =>
      obtain ⟨a, ha⟩ := hmatch hm
      exact ⟨[a], by simpa [taken] using ha⟩
  | case2 c cs hm ih =>
    rw [matched, hm]
    exact ih
  | case3 c cs groups rest hm hlt ih =>
    obtain ⟨a, ha⟩ := hmatch hm
    obtain ⟨found, hfound⟩ := ih
    refine ⟨a :: found, ?_⟩
    rw [matched, hm]
    simp only [if_pos hlt, hfound, ha, List.map_cons]
  | case4 c cs groups rest hm hle ih =>
    obtain ⟨a, ha⟩ := hmatch hm
    obtain ⟨found, hfound⟩ := ih
    refine ⟨a :: found, ?_⟩
    rw [matched, hm]
    simp only [if_neg hle, hfound, ha, List.map_cons]

/-- A search through a text comes to where this much of the text is left. -/
inductive ComesTo (p : Pattern) : List Char → List Char → Prop
  | here (cs : List Char) : ComesTo p cs cs
  | next {c : Char} {cs rest : List Char} (h : ComesTo p (p.next c cs) rest) :
      ComesTo p (c :: cs) rest

theorem comesTo_cons_iff :
    p.ComesTo (c :: cs) rest ↔ rest = c :: cs ∨ p.ComesTo (p.next c cs) rest := by
  constructor
  · intro h
    cases h with
    | here => exact .inl rfl
    | next h => exact .inr h
  · intro h
    rcases h with rfl | h
    · exact .here _
    · exact .next h

namespace ComesTo

theorem suffix (h : p.ComesTo cs rest) : rest <:+ cs := by
  induction h with
  | here cs => exact List.suffix_rfl
  | @next c cs rest h ih => exact ih.trans ((next_suffix p c cs).trans (List.suffix_cons c cs))

theorem of_suffix (h : p.ComesTo cs rest) (h' : p.ComesTo cs rest') (hrest : rest' <:+ rest) :
    p.ComesTo rest rest' := by
  induction h with
  | here cs => exact h'
  | @next c cs rest h ih =>
    rcases comesTo_cons_iff.mp h' with rfl | h'
    · have hlen := (hrest.trans (h.suffix.trans (next_suffix p c cs))).length_le
      rw [List.length_cons] at hlen
      omega
    · exact ih h' hrest

theorem findAll_suffix (h : p.ComesTo cs rest) : p.findAll rest <:+ p.findAll cs := by
  induction h with
  | here cs => exact List.suffix_rfl
  | next h ih =>
    rw [findAll_cons]
    exact ih.trans (List.suffix_append _ _)

end ComesTo

theorem mem_findAll_of_groups? (h : p.groups? cs = some groups) : groups ∈ p.findAll cs := by
  cases cs with
  | nil =>
    rw [groups?] at h
    simp [findAll, h]
  | cons c cs => simp [findAll_cons, h]

/-- What `u` begins with matches, and the match goes on behind `u`. -/
def PassesOver (p : Pattern) (u cs : List Char) : Prop :=
  ∃ x rest groups, u ≠ [] ∧ x ≠ [] ∧ cs = x ++ rest ∧ p.match? (u ++ cs) = some (groups, rest)

theorem PassesOver.exists_takes (h : p.PassesOver u cs) :
    ∃ x rest groups, u ≠ [] ∧ x ≠ [] ∧ cs = x ++ rest ∧ p.Takes (u ++ x) groups := by
  obtain ⟨x, rest, groups, hu, hx, rfl, hm⟩ := h
  obtain ⟨w, hw, htakes⟩ := takes_of_match? hm
  rw [← List.append_assoc] at hw
  exact ⟨x, rest, groups, hu, hx, rfl, List.append_cancel_right hw ▸ htakes⟩

theorem suffix_next_iff : cs <:+ p.next c (u ++ cs) ↔ ¬ p.PassesOver (c :: u) cs := by
  constructor
  · intro h hpasses
    obtain ⟨x, rest, groups, -, hx, rfl, hm⟩ := hpasses
    rw [List.cons_append] at hm
    have hlen := List.length_pos_of_ne_nil hx
    have hlt : rest.length < (c :: (u ++ (x ++ rest))).length := by
      simp only [List.length_cons, List.length_append]
      omega
    rw [next_of_match? hm hlt] at h
    have hle := h.length_le
    rw [List.length_append] at hle
    omega
  · intro h
    rw [next]
    split
    · exact List.suffix_append u cs
    · next m hm =>
      split
      · rcases List.suffix_or_suffix_of_suffix (suffix_of_match? hm)
          ((List.suffix_append u cs).trans (List.suffix_cons c _)) with hrest | hcs
        · obtain ⟨x, hx⟩ := hrest
          cases x with
          | nil => exact hx ▸ List.suffix_rfl
          | cons d x => exact absurd ⟨d :: x, m.2, m.1, by simp, by simp, hx.symm, hm⟩ h
        · exact hcs
      · exact List.suffix_append u cs

theorem comesTo_append_iff : p.ComesTo (u ++ cs) cs ↔
    ∀ v, v <:+ u → p.ComesTo (u ++ cs) (v ++ cs) → ¬ p.PassesOver v cs := by
  constructor
  · intro h v hv hcomes
    cases v with
    | nil =>
      intro hpasses
      obtain ⟨-, -, -, hne, -⟩ := hpasses
      exact hne rfl
    | cons c v =>
      have hrest := hcomes.of_suffix h (List.suffix_append _ cs)
      rw [List.cons_append, comesTo_cons_iff] at hrest
      rcases hrest with heq | hrest
      · have := congrArg List.length heq
        simp at this
        omega
      · exact suffix_next_iff.mp hrest.suffix
  · intro h
    induction hn : u.length using Nat.strong_induction_on generalizing u with
    | _ n ih =>
      cases u with
      | nil => exact .here cs
      | cons c u =>
        -- the search goes on inside `u` or where it ends
        obtain ⟨v, hv⟩ := suffix_next_iff.mpr (h _ List.suffix_rfl (.here _))
        have hvu : v <:+ u := by
          have := next_suffix p c (u ++ cs)
          rw [← hv] at this
          exact (List.suffix_append_inj_of_length_eq rfl).mp this |>.1
        have hstep : ∀ {r}, p.ComesTo (v ++ cs) r → p.ComesTo (c :: u ++ cs) r := by
          intro r hr
          rw [hv] at hr
          exact .next hr
        have hlen : v.length < n := by
          have := hvu.length_le
          rw [← hn, List.length_cons]
          omega
        exact hstep (ih v.length hlen (fun w hw hcomes =>
          h w (hw.trans (hvu.trans (List.suffix_cons c u))) (hstep hcomes)) rfl)

theorem comesTo_append (h : ∀ {v x rest groups}, v <:+ u → v ≠ [] → x ≠ [] → cs = x ++ rest →
    ¬ p.Takes (v ++ x) groups) : p.ComesTo (u ++ cs) cs := by
  refine comesTo_append_iff.mpr fun v hv _ hpasses => ?_
  obtain ⟨x, rest, groups, hne, hx, hcs, htakes⟩ := hpasses.exists_takes
  exact h hv hne hx hcs htakes

end Pattern

end UnusedAssets
