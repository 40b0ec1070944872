import UnusedAssets.Text.Affix
import UnusedAssets.Text.Blank

/-!
# Text patterns

A pattern is a sequence of pieces, some of them gathered into groups whose text is kept. A piece can
match in several ways, listed in order of preference: earlier choices first, longer runs first. The
match of a pattern at a place is the first way in that order in which all its pieces fit.
-/

namespace UnusedAssets

open Text

inductive ClassPart where
  | blank
  | span (first last : Char)
  | only (c : Char)
  deriving DecidableEq, Repr

def ClassPart.holds : ClassPart → Char → Bool
  | .blank, c => isBlank c
  | .span first last, c => first.toNat ≤ c.toNat && c.toNat ≤ last.toNat
  | .only d, c => c == d

/-- The characters of some parts, or all others. -/
structure CharClass where
  parts : List ClassPart
  negated : Bool
  deriving DecidableEq, Repr

def CharClass.holds (k : CharClass) (c : Char) : Bool :=
  k.parts.any (·.holds c) != k.negated

inductive Piece where
  /-- This text. -/
  | literal (text : String)
  /-- The first of these texts that leads to a match. -/
  | choice (texts : List String)
  /-- This text, or nothing. -/
  | optional (text : String)
  /-- One character of a class. -/
  | single (k : CharClass)
  /-- As many characters of a class as possible, perhaps none. -/
  | many (k : CharClass)
  /-- As many characters of a class as possible, at least one. -/
  | some (k : CharClass)
  deriving DecidableEq, Repr

/-- What is left after taking a run of characters of a class, longest run first, in front of `acc`. -/
def CharClass.runs (k : CharClass) (acc : List (List Char)) : List Char → List (List Char)
  | [] => [] :: acc
  | c :: cs => if k.holds c then k.runs ((c :: cs) :: acc) cs else (c :: cs) :: acc

/-- What can be left after the piece, in order of preference. -/
def Piece.rests : Piece → List Char → List (List Char)
  | .literal t, cs => (after? t.toList cs).toList
  | .choice ts, cs => ts.filterMap fun t => after? t.toList cs
  | .optional t, cs => (after? t.toList cs).toList ++ [cs]
  | .single k, cs =>
    match cs with
    | [] => []
    | c :: cs => if k.holds c then [cs] else []
  | .many k, cs => k.runs [] cs
  | .some k, cs =>
    match cs with
    | [] => []
    | c :: cs => if k.holds c then k.runs [] cs else []

/-- What can be left after a sequence of pieces, in order of preference. -/
def Piece.restsOfAll : List Piece → List Char → List (List Char)
  | [], cs => [cs]
  | p :: ps, cs => (p.rests cs).flatMap (restsOfAll ps)

inductive Element where
  /-- A piece whose text is not kept. -/
  | piece (p : Piece)
  /-- Pieces whose text is kept. -/
  | group (ps : List Piece)
  deriving DecidableEq, Repr

/-- The elements of a pattern, in order. -/
abbrev Pattern := List Element

namespace Pattern

/-- The text that was taken from `cs` if `rest` is left of it. -/
def taken (cs rest : List Char) : String := String.ofList (cs.take (cs.length - rest.length))

/-- The preferred match at the beginning of a text: the texts of the groups, and what is left. -/
def match? : Pattern → List Char → Option (List String × List Char)
  | [], cs => some ([], cs)
  | .piece p :: more, cs => (p.rests cs).findSome? (match? more)
  | .group ps :: more, cs =>
    (Piece.restsOfAll ps cs).findSome? fun rest =>
      (match? more rest).map fun m => (taken cs rest :: m.1, m.2)

/-- The groups of all matches from left to right. After a match the search goes on where the match
ends; where none begins, it goes on with the next character. -/
def findAll (p : Pattern) : List Char → List (List String)
  | [] => ((p.match? []).map (·.1)).toList
  | c :: cs =>
    match p.match? (c :: cs) with
    | none => findAll p cs
    | some (groups, rest) =>
      if rest.length < (c :: cs).length then groups :: findAll p rest
      else groups :: findAll p cs
termination_by cs => cs.length
decreasing_by all_goals simp only [List.length_cons] at *; omega

end Pattern

end UnusedAssets
