import UnusedAssets.Proofs.Pattern.Progress
import UnusedAssets.Rule

/-!
# Character classes and finds of the rules

Each class of characters that a rule uses is said here in plain terms. A rule finds what its pattern
reads at a place to which the search comes (`Rule.mem_find_of_comesTo`).
-/

namespace UnusedAssets

open Text

namespace ClassPart

variable (c : Char)

theorem holds_upper : (span 'A' 'Z').holds c = c.isUpper := (Bool.decide_and _ _).symm

theorem holds_lower : (span 'a' 'z').holds c = c.isLower := rfl

theorem holds_digit : (span '0' '9').holds c = c.isDigit := rfl

theorem holds_blank : blank.holds c = isBlank c := rfl

theorem holds_only (d : Char) : (only d).holds c = (c == d) := rfl

end ClassPart

theorem Text.toNat_of_isBlank {c : Char} (h : isBlank c = true) : c.toNat ≤ 32 ∨ 128 ≤ c.toNat := by
  obtain ⟨r, hr, hc⟩ := List.any_eq_true.mp h
  have hranges : ∀ r ∈ blankRanges, r.2 ≤ 32 ∨ 128 ≤ r.1 := by decide
  simp only [Bool.and_eq_true, decide_eq_true_eq] at hc
  have := hranges r hr
  omega

namespace CharClass

open ClassPart

variable {c : Char}

theorem holds_blanks : blanks.holds c = isBlank c := by
  simp [holds, blanks, holds_blank]

theorem holds_classNames_iff : classNames.holds c = true ↔ c.isAlphanum ∨ c = '\\' := by
  have halphanum : c.isAlphanum = (c.isUpper || c.isLower || c.isDigit) := rfl
  simp [holds, classNames, holds_upper, holds_lower, holds_digit, holds_only, halphanum, or_assoc]

theorem holds_tagNames_iff :
    tagNames.holds c = true ↔ c.isLower ∨ c.isDigit ∨ c = '.' ∨ c = '-' := by
  simp [holds, tagNames, holds_lower, holds_digit, holds_only]

theorem holds_quotes_iff : quotes.holds c = true ↔ c = '\'' ∨ c = '"' := by
  simp [holds, quotes, holds_only]

theorem holds_unquoted_iff : unquoted.holds c = true ↔ ¬ (c = '\'' ∨ c = '"') := by
  simp [holds, unquoted, holds_only]

theorem holds_opening_iff : opening.holds c = true ↔ isBlank c = true ∨ c = '\'' ∨ c = '"' := by
  simp [holds, opening, holds_blank, holds_only]

theorem holds_arguments_iff : arguments.holds c = true ↔ ¬ (c = '\'' ∨ c = '"' ∨ c = ')') := by
  simp [holds, arguments, holds_only]

theorem holds_verbs : verbs.holds c = c.isLower := by
  simp [holds, verbs, holds_lower]

theorem holds_listed_iff : listed.holds c = true ↔ c ≠ ']' := by
  simp [holds, listed, holds_only]

theorem unquoted_of_isBlank (h : isBlank c = true) : unquoted.holds c = true := by
  rw [holds_unquoted_iff]
  rintro (rfl | rfl)
  · exact absurd h (by decide)
  · exact absurd h (by decide)

theorem listed_of_isBlank (h : isBlank c = true) : listed.holds c = true := by
  rw [holds_listed_iff]
  rintro rfl
  exact absurd h (by decide)

theorem not_unquoted_of_quotes (h : quotes.holds c = true) : unquoted.holds c = false := by
  rw [Bool.eq_false_iff, Ne, holds_unquoted_iff, Classical.not_not]
  exact holds_quotes_iff.mp h

theorem isBlank_eq_false_of_classNames (h : classNames.holds c = true) : isBlank c = false := by
  have hname : 32 < c.toNat ∧ c.toNat < 128 := by
    simp only [holds, classNames, ClassPart.holds, List.any_cons, List.any_nil, Bool.or_false,
      Bool.bne_false, Bool.or_eq_true, Bool.and_eq_true, decide_eq_true_eq, beq_iff_eq] at h
    rcases h with h | h | h | rfl
    · exact ⟨Nat.lt_of_lt_of_le (by decide) h.1, Nat.lt_of_le_of_lt h.2 (by decide)⟩
    · exact ⟨Nat.lt_of_lt_of_le (by decide) h.1, Nat.lt_of_le_of_lt h.2 (by decide)⟩
    · exact ⟨Nat.lt_of_lt_of_le (by decide) h.1, Nat.lt_of_le_of_lt h.2 (by decide)⟩
    · decide
  rw [Bool.eq_false_iff]
  intro hblank
  have := toNat_of_isBlank hblank
  omega

theorem classNames_eq_false_of_isBlank (h : isBlank c = true) : classNames.holds c = false := by
  rw [Bool.eq_false_iff]
  intro hname
  rw [isBlank_eq_false_of_classNames hname] at h
  exact absurd h (by decide)

end CharClass

theorem Rule.flatMap_ite_singleton {α β : Type} (p : α → Bool) (f : α → β) (xs : List α) :
    (xs.flatMap fun x => if p x then [f x] else []) = (xs.filter p).map f := by
  induction xs with
  | nil => rfl
  | cons x xs ih =>
    rw [List.flatMap_cons, ih, List.filter_cons]
    cases p x <;> rfl

theorem Rule.mem_find_of_comesTo {r : Rule} {content : String} {rest : List Char}
    {groups : List String} {ref : Reference} (hcomes : r.pattern.ComesTo content.toList rest)
    (hgroups : r.pattern.groups? rest = some groups) (href : ref ∈ r.references groups) :
    ref ∈ r.find content := by
  rw [find, List.mem_flatMap]
  exact ⟨groups, hcomes.findAll_suffix.mem (Pattern.mem_findAll_of_groups? hgroups), href⟩

end UnusedAssets
