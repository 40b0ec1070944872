import UnusedAssets.Proofs.Candidate.Boundaries
import UnusedAssets.Proofs.Text.Runs

/-!
# What an extra exclusion begins with

An extra exclusion may begin with pieces that lead nowhere, `./` and `/`. They are taken off in two
passes, first all `./` and then all slashes, so a `./` behind a slash stays (`trimmed_leadText`). The
exclusion then begins like no path of a project and excludes nothing (`candidates_of_here`). So leading
pieces make no difference exactly if no `./` stands behind a slash (`excludesWith_of_lead`).
-/

namespace UnusedAssets

open Text

namespace Candidate

inductive LeadPiece where
  /-- The folder itself, `./`. -/
  | here
  /-- A slash. -/
  | slash
  deriving DecidableEq, Repr

def LeadPiece.text : LeadPiece → String
  | .here => "./"
  | .slash => "/"

def leadText (pieces : List LeadPiece) : String := String.join (pieces.map LeadPiece.text)

/-- The pieces that the two passes leave. -/
def keptPieces (pieces : List LeadPiece) : List LeadPiece :=
  (pieces.dropWhile (· = .here)).dropWhile (· = .slash)

/-- No `./` stands behind a slash. -/
def InOrder (pieces : List LeadPiece) : Prop :=
  ∃ i j, pieces = List.replicate i .here ++ List.replicate j .slash

variable {pieces : List LeadPiece} {e text : String}

theorem toList_leadText_cons (piece : LeadPiece) (pieces : List LeadPiece) (e : String) :
    (leadText (piece :: pieces) ++ e).toList =
      piece.text.toList ++ (leadText pieces ++ e).toList := by
  rw [leadText, List.map_cons, String.join_cons, ← leadText, String.append_assoc,
    String.toList_append]

theorem leadText_nil_append (e : String) : leadText [] ++ e = e := String.empty_append

/-! ### The two passes -/

theorem dropHere_of_startsWith (h : startsWith e "./" = false) : dropHere e.toList = e.toList := by
  unfold dropHere
  split
  · next rest hrest =>
    rw [startsWith_iff.mpr ⟨rest, hrest⟩] at h
    exact absurd h (by decide)
  · rfl

theorem dropHere_leadText (h : startsWith e "./" = false) :
    dropHere (leadText pieces ++ e).toList =
      (leadText (pieces.dropWhile (· = .here)) ++ e).toList := by
  induction pieces with
  | nil => rw [List.dropWhile_nil, leadText_nil_append, dropHere_of_startsWith h]
  | cons piece pieces ih =>
    cases piece with
    | here =>
      rw [toList_leadText_cons, List.dropWhile_cons_of_pos (by decide), ← ih]
      rfl
    | slash =>
      rw [List.dropWhile_cons_of_neg (by decide), toList_leadText_cons]
      rfl

theorem dropLeading_leadText (h : startsWith e "/" = false) :
    dropLeading (leadText pieces ++ e) '/' = leadText (pieces.dropWhile (· = .slash)) ++ e := by
  induction pieces with
  | nil =>
    rw [List.dropWhile_nil, leadText_nil_append]
    exact dropLeading_eq_self (startsWith_slash_eq_false_iff.mp h)
  | cons piece pieces ih =>
    rw [← String.toList_inj, dropLeading, String.toList_ofList, toList_leadText_cons]
    cases piece with
    | here =>
      rw [List.dropWhile_cons_of_neg (by decide), toList_leadText_cons]
      rfl
    | slash =>
      rw [List.dropWhile_cons_of_pos (by decide), ← ih, dropLeading, String.toList_ofList]
      rfl

theorem trimmed_leadText (hhere : startsWith e "./" = false) (hslash : startsWith e "/" = false) :
    trimmed (leadText pieces ++ e) = leadText (keptPieces pieces) ++ e := by
  rw [trimmed, dropHere_leadText hhere, String.ofList_toList, dropLeading_leadText hslash,
    keptPieces]

/-! ### What is left of the pieces -/

theorem keptPieces_eq_nil_iff : keptPieces pieces = [] ↔ InOrder pieces := by
  constructor
  · intro h
    obtain ⟨run, rest, rfl, hrun, hrest⟩ := exists_run (· = LeadPiece.here) pieces
    rw [keptPieces, dropWhile_run hrun hrest, List.dropWhile_eq_nil_iff] at h
    refine ⟨run.length, rest.length, ?_⟩
    rw [← List.eq_replicate_of_mem fun piece hpiece => of_decide_eq_true (hrun piece hpiece),
      ← List.eq_replicate_of_mem fun piece hpiece => of_decide_eq_true (h piece hpiece)]
  · rintro ⟨i, j, rfl⟩
    have hrun : ∀ piece ∈ List.replicate i LeadPiece.here, decide (piece = .here) = true := by
      intro piece hpiece
      rw [List.eq_of_mem_replicate hpiece]
      rfl
    have hrest : ∀ piece ∈ (List.replicate j LeadPiece.slash).head?,
        decide (piece = .here) = false := by
      intro piece hpiece
      rw [List.eq_of_mem_replicate (List.mem_of_mem_head? hpiece)]
      rfl
    rw [keptPieces, dropWhile_run hrun hrest, List.dropWhile_eq_nil_iff]
    intro piece hpiece
    rw [List.eq_of_mem_replicate hpiece]
    rfl

/-- The first piece that is left is no slash. -/
theorem exists_keptPieces (h : ¬ InOrder pieces) : ∃ more, keptPieces pieces = .here :: more := by
  obtain ⟨piece, more, hmore⟩ := List.exists_cons_of_ne_nil (mt keptPieces_eq_nil_iff.mp h)
  have hhead := List.head?_dropWhile_not (· = LeadPiece.slash) (pieces.dropWhile (· = .here))
  rw [← keptPieces, hmore] at hhead
  cases piece with
  | here => exact ⟨more, hmore⟩
  | slash => exact absurd hhead (by simp)

theorem startsWith_here_of_not_inOrder (h : ¬ InOrder pieces) (e : String) :
    startsWith (leadText (keptPieces pieces) ++ e) "./" = true := by
  obtain ⟨more, hmore⟩ := exists_keptPieces h
  rw [hmore, startsWith_iff]
  exact ⟨_, toList_leadText_cons .here more e⟩

theorem leadText_append_ne (h : ¬ InOrder pieces) (text : String) :
    leadText (keptPieces pieces) ++ text ≠ text := by
  obtain ⟨more, hmore⟩ := exists_keptPieces h
  intro heq
  have hchars := congrArg String.toList heq
  rw [hmore, toList_leadText_cons, String.toList_append] at hchars
  have hlength := congrArg List.length hchars
  simp only [List.length_append] at hlength
  have hhere : LeadPiece.here.text.toList.length = 2 := rfl
  omega

/-! ### Normal forms -/

theorem closed_append (lead : String) (he : e ≠ "") : closed (lead ++ e) = lead ++ closed e := by
  unfold closed
  rw [endsWith_slash_append lead he]
  split
  · rfl
  · exact String.append_assoc

theorem normalExclude?_leadText (pieces : List LeadPiece) (hne : e ≠ "")
    (hhere : startsWith e "./" = false) (hslash : startsWith e "/" = false) :
    normalExclude? (leadText pieces ++ e) = some (leadText (keptPieces pieces) ++ closed e) := by
  have htrimmed : leadText (keptPieces pieces) ++ e ≠ "" := by
    intro h
    exact hne (String.append_eq_empty_iff.mp h).2
  rw [normalExclude?_eq, trimmed_leadText hhere hslash, if_neg htrimmed, closed_append _ hne]

theorem startsWith_closed (hne : e ≠ "") (hdot : e ≠ ".") (h : startsWith e "./" = false) :
    startsWith (closed e) "./" = false := by
  unfold closed
  split
  · exact h
  · rw [← Bool.not_eq_true, startsWith_iff]
    rintro ⟨rest, hrest⟩
    have hslash : e.toList ++ ['/'] = '.' :: '/' :: rest := by simpa using hrest
    -- the added slash can stand in `./` only behind a single dot
    cases hchars : e.toList with
    | nil => exact hne (by simpa using hchars)
    | cons c cs =>
      rw [hchars] at hslash
      obtain ⟨rfl, htail⟩ := List.cons.inj hslash
      cases cs with
      | nil => exact hdot (by rw [← String.toList_inj, hchars]; rfl)
      | cons d cs =>
        obtain ⟨rfl, -⟩ := List.cons.inj htail
        rw [startsWith_iff.mpr ⟨cs, hchars⟩] at h
        exact absurd h (by decide)

theorem here_not_mem_fixedExcludes (h : startsWith e "./" = true) : e ∉ fixedExcludes := by
  have hfixed : ∀ e ∈ fixedExcludes, startsWith e "./" = false := by decide
  intro he
  rw [hfixed e he] at h
  exact absurd h (by decide)

/-! ### Exclusions -/

section

variable (hne : e ≠ "") (hhere : startsWith e "./" = false) (hslash : startsWith e "/" = false)

include hne hhere hslash

theorem mem_excludesWith_leadText (pieces : List LeadPiece) {x : String} :
    x ∈ excludesWith [leadText pieces ++ e] ↔
      x ∈ fixedExcludes ∨ x = leadText (keptPieces pieces) ++ closed e := by
  rw [mem_excludesWith_iff, contributed,
    List.filterMap_cons_some (normalExclude?_leadText pieces hne hhere hslash), List.filterMap_nil,
    List.mem_singleton]

theorem mem_excludesWith_single {x : String} :
    x ∈ excludesWith [e] ↔ x ∈ fixedExcludes ∨ x = closed e :=
  mem_excludesWith_leadText hne hhere hslash []

theorem excludesWith_leadText_eq_iff :
    excludesWith [leadText pieces ++ e] = excludesWith [e] ↔ InOrder pieces := by
  constructor
  · intro heq
    by_contra horder
    have hnew := (mem_excludesWith_leadText hne hhere hslash pieces).mpr (.inr rfl)
    rw [heq, mem_excludesWith_single hne hhere hslash] at hnew
    rcases hnew with hfixed | hclosed
    · exact here_not_mem_fixedExcludes (startsWith_here_of_not_inOrder horder _) hfixed
    · exact leadText_append_ne horder _ hclosed
  · intro horder
    have hlead := normalExclude?_leadText pieces hne hhere hslash
    have hplain : normalExclude? e = some (closed e) := normalExclude?_leadText [] hne hhere hslash
    rw [keptPieces_eq_nil_iff.mpr horder, leadText_nil_append] at hlead
    simp only [excludesWith, List.foldl_cons, List.foldl_nil, addExclude, hlead, hplain]

/-- Among the exclusions is one that begins with `./` unless the pieces are in order, and for a single
dot. -/
theorem forall_mem_excludesWith_leadText_iff :
    (∀ x ∈ excludesWith [leadText pieces ++ e], startsWith x "./" = false) ↔
      InOrder pieces ∧ e ≠ "." := by
  constructor
  · intro hnone
    have hnew := hnone _ ((mem_excludesWith_leadText hne hhere hslash pieces).mpr (.inr rfl))
    have horder : InOrder pieces := by
      by_contra horder
      rw [startsWith_here_of_not_inOrder horder] at hnew
      exact absurd hnew (by decide)
    refine ⟨horder, ?_⟩
    rintro rfl
    rw [keptPieces_eq_nil_iff.mpr horder, leadText_nil_append] at hnew
    exact absurd hnew (by decide)
  · rintro ⟨horder, hdot⟩ x hx
    rcases (mem_excludesWith_leadText hne hhere hslash pieces).mp hx with hfixed | rfl
    · rw [← Bool.not_eq_true]
      exact fun hstarts => here_not_mem_fixedExcludes hstarts hfixed
    · rw [keptPieces_eq_nil_iff.mpr horder, leadText_nil_append]
      exact startsWith_closed hne hdot hhere

end

end Candidate

open Candidate

namespace Project

variable {p : Project} {e : String}

theorem not_startsWith_here_of_mem_candidates {excludes : List String} {path : String}
    (h : path ∈ p.candidates excludes) : startsWith path "./" = false := by
  obtain ⟨⟨names, hmem, rfl⟩, -⟩ := mem_candidates.mp h
  have hnames := FileTree.isName_of_mem_filesBelow hmem
  rw [← Bool.not_eq_true]
  intro hstarts
  have hbelow : startsWith (Path.textOf names) ("." ++ "/") = true := hstarts
  obtain ⟨hsegments, -⟩ := startsWith_append_slash_iff.mp hbelow
  rw [Path.split_textOf (FileTree.mem_filesBelow_iff.mp hmem).1 hnames] at hsegments
  have hdot : "." ∈ names.map decodeLenient := hsegments.subset (by decide)
  obtain ⟨name, hname, htext⟩ := List.mem_map.mp hdot
  exact (hnames name hname).2.1 (eq_encode_of_decodeLenient htext (by decide))

/-- An exclusion that begins with `./` excludes nothing. -/
theorem candidates_of_here {excludes excludes' : List String} (hhere : startsWith e "./" = true)
    (h : ∀ x, x ∈ excludes' ↔ x ∈ excludes ∨ x = e) :
    p.candidates excludes' = p.candidates excludes := by
  have hmore : ∀ x, x ∈ excludes' ↔ x ∈ excludes ∨ x ∈ [e] := by simpa using h
  rw [candidates_of_more hmore, List.filter_eq_self]
  intro path hpath
  have hfree := not_startsWith_here_of_mem_candidates hpath
  rw [Bool.not_eq_true', isExcluded_eq_false_iff, List.forall_mem_singleton, ← Bool.not_eq_true]
  intro hstarts
  rw [startsWith_trans hstarts hhere] at hfree
  exact absurd hfree (by decide)

end Project

/-- Leading pieces make no difference to an extra exclusion exactly if no `./` stands behind a slash,
and what it then stands for begins with `./` only if it is a single dot. Any other leading pieces make
it an exclusion of nothing. -/
theorem Candidate.excludesWith_of_lead {e : String} (hne : e ≠ "")
    (hhere : startsWith e "./" = false) (hslash : startsWith e "/" = false)
    (pieces : List LeadPiece) :
    (excludesWith [leadText pieces ++ e] = excludesWith [e] ↔ InOrder pieces) ∧
      ((∀ x ∈ excludesWith [leadText pieces ++ e], startsWith x "./" = false) ↔
        InOrder pieces ∧ e ≠ ".") ∧
      (InOrder pieces → ∀ p : Project,
        p.candidates (excludesWith [leadText pieces ++ e]) = p.candidates (excludesWith [e])) ∧
      (¬ InOrder pieces → ∀ p : Project,
        p.candidates (excludesWith [leadText pieces ++ e]) = p.candidates (excludesWith [])) := by
  refine ⟨excludesWith_leadText_eq_iff hne hhere hslash,
    forall_mem_excludesWith_leadText_iff hne hhere hslash, fun horder p => ?_, fun horder p => ?_⟩
  · rw [(excludesWith_leadText_eq_iff hne hhere hslash).mpr horder]
  · exact Project.candidates_of_here (startsWith_here_of_not_inOrder horder _) fun x =>
      mem_excludesWith_leadText hne hhere hslash pieces

namespace Candidate

theorem excludesWith_of_lead_docs :
    "docs" ≠ "" ∧ startsWith "docs" "./" = false ∧ startsWith "docs" "/" = false ∧
      excludesWith ["././/docs"] = excludesWith ["docs"] ∧
      ∀ p : Project, p.candidates (excludesWith ["/./docs"]) = p.candidates (excludesWith []) := by
  have hne : "docs" ≠ "" := by decide
  have hhere : startsWith "docs" "./" = false := by decide
  have hslash : startsWith "docs" "/" = false := by decide
  have hsplit : ¬ InOrder [.slash, .here] := mt keptPieces_eq_nil_iff.mpr (by decide)
  obtain ⟨hsame, -⟩ := excludesWith_of_lead hne hhere hslash [.here, .here, .slash]
  obtain ⟨-, -, -, hnothing⟩ := excludesWith_of_lead hne hhere hslash [.slash, .here]
  exact ⟨hne, hhere, hslash, hsame.mpr ⟨2, 1, rfl⟩, hnothing hsplit⟩

/-- A slash in front keeps the `./` behind it. -/
theorem excludesWith_of_slash_in_front : ¬ ∀ (pieces : List LeadPiece) (e : String), e ≠ "" →
    startsWith e "./" = false → startsWith e "/" = false →
      excludesWith [leadText pieces ++ e] = excludesWith [e] ∧
        ∀ x ∈ excludesWith [leadText pieces ++ e], startsWith x "./" = false := by
  intro h
  obtain ⟨hsame, -⟩ := h [.slash, .here] "docs" (by decide) (by decide) (by decide)
  exact absurd hsame (by decide)

end Candidate

end UnusedAssets
