/-!
# Leading, trailing and inner parts of a text

A test on a string is a test on its list of characters, so that each test has one law over lists.
`after?_eq_some_iff` says what taking a leading part off means, and `occursIn_iff` what it means
for one text to occur in another.
-/

namespace UnusedAssets.Text

section Lists

variable {α : Type} [DecidableEq α]

def after? : (lead xs : List α) → Option (List α)
  | [], xs => some xs
  | _ :: _, [] => none
  | a :: lead, x :: xs => if a = x then after? lead xs else none

theorem after?_eq_some_iff {lead xs rest : List α} :
    after? lead xs = some rest ↔ xs = lead ++ rest := by
  induction lead generalizing xs with
  | nil => simp [after?]
  | cons a lead ih =>
    cases xs with
    | nil => simp [after?]
    | cons x xs =>
      by_cases h : a = x
      · subst h; simp [after?, ih]
      · simp [after?, h, Ne.symm h]

theorem after?_append (lead rest : List α) : after? lead (lead ++ rest) = some rest :=
  after?_eq_some_iff.mpr rfl

def before? (tail xs : List α) : Option (List α) :=
  (after? tail.reverse xs.reverse).map List.reverse

theorem before?_eq_some_iff {tail xs rest : List α} :
    before? tail xs = some rest ↔ xs = rest ++ tail := by
  simp only [before?, Option.map_eq_some_iff, after?_eq_some_iff]
  constructor
  · rintro ⟨r, h, rfl⟩
    have := congrArg List.reverse h
    simpa using this
  · rintro rfl
    exact ⟨rest.reverse, by simp, by simp⟩

/-- Whether `part` stands somewhere in a list, without gaps. -/
def occursIn (part : List α) : List α → Bool
  | [] => part.isEmpty
  | x :: xs => part.isPrefixOf (x :: xs) || occursIn part xs

theorem occursIn_iff {part xs : List α} :
    occursIn part xs = true ↔ ∃ l r, xs = l ++ part ++ r := by
  induction xs with
  | nil =>
    simp only [occursIn, List.isEmpty_iff]
    constructor
    · rintro rfl; exact ⟨[], [], rfl⟩
    · rintro ⟨l, r, h⟩
      simp only [List.nil_eq, List.append_eq_nil_iff] at h
      exact h.1.2
  | cons x xs ih =>
    simp only [occursIn, Bool.or_eq_true, List.isPrefixOf_iff_prefix, ih]
    constructor
    · rintro (⟨r, h⟩ | ⟨l, r, rfl⟩)
      · exact ⟨[], r, by simpa using h.symm⟩
      · exact ⟨x :: l, r, by simp⟩
    · rintro ⟨l, r, h⟩
      cases l with
      | nil => exact .inl ⟨r, by simpa using h.symm⟩
      | cons y l =>
        simp only [List.cons_append, List.cons.injEq] at h
        exact .inr ⟨l, r, h.2⟩

end Lists

def startsWith (s lead : String) : Bool := lead.toList.isPrefixOf s.toList

def endsWith (s tail : String) : Bool := tail.toList.isSuffixOf s.toList

def mentions (s part : String) : Bool := occursIn part.toList s.toList

/-- `s` without `lead` at its beginning, if it begins so. -/
def dropLead? (s lead : String) : Option String :=
  (after? lead.toList s.toList).map String.ofList

/-- `s` without `tail` at its end, if it ends so. -/
def dropTail? (s tail : String) : Option String :=
  (before? tail.toList s.toList).map String.ofList

def dropLeading (s : String) (c : Char) : String :=
  String.ofList (s.toList.dropWhile (· == c))

theorem startsWith_iff {s lead : String} :
    startsWith s lead = true ↔ ∃ rest, s.toList = lead.toList ++ rest := by
  simp only [startsWith, List.isPrefixOf_iff_prefix]
  constructor
  · rintro ⟨r, h⟩
    exact ⟨r, h.symm⟩
  · rintro ⟨r, h⟩
    exact ⟨r, h.symm⟩

theorem endsWith_iff {s tail : String} :
    endsWith s tail = true ↔ ∃ rest, s.toList = rest ++ tail.toList := by
  simp only [endsWith, List.isSuffixOf_iff_suffix]
  constructor
  · rintro ⟨r, h⟩
    exact ⟨r, h.symm⟩
  · rintro ⟨r, h⟩
    exact ⟨r, h.symm⟩

theorem mentions_iff {s part : String} :
    mentions s part = true ↔ ∃ l r, s.toList = l ++ part.toList ++ r :=
  occursIn_iff

theorem mentions_iff_isInfix {s part : String} :
    mentions s part = true ↔ part.toList <:+: s.toList := by
  rw [mentions_iff]
  constructor
  · rintro ⟨l, r, h⟩
    exact ⟨l, r, h.symm⟩
  · rintro ⟨l, r, h⟩
    exact ⟨l, r, h.symm⟩

theorem dropLead?_eq_some_iff {s lead rest : String} :
    dropLead? s lead = some rest ↔ s = lead ++ rest := by
  simp only [dropLead?, Option.map_eq_some_iff, after?_eq_some_iff, ← String.toList_inj,
    String.toList_append]
  constructor
  · rintro ⟨r, h, e⟩
    rw [String.toList_ofList] at e
    rw [h, e]
  · intro h
    exact ⟨rest.toList, h, by simp⟩

theorem dropTail?_eq_some_iff {s tail rest : String} :
    dropTail? s tail = some rest ↔ s = rest ++ tail := by
  simp only [dropTail?, Option.map_eq_some_iff, before?_eq_some_iff, ← String.toList_inj,
    String.toList_append]
  constructor
  · rintro ⟨r, h, e⟩
    rw [String.toList_ofList] at e
    rw [h, e]
  · intro h
    exact ⟨rest.toList, h, by simp⟩

end UnusedAssets.Text
