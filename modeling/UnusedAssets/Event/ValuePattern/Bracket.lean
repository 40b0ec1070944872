import UnusedAssets.Event.ValuePattern.Atom
import UnusedAssets.Event.ValuePattern.Nesting
import UnusedAssets.Text.Affix

/-!
# Brackets in value patterns

A bracket holds characters, ranges, named classes and brackets, with operators between them. Where
characters count as bytes, what a bracket leaves out cannot be said: no bracket is negated then, and no
named class.
-/

namespace UnusedAssets.ValuePattern

open Text

structure Bracket where
  /-- The depth of what stands before the last operator. -/
  left : Option Nat := none
  /-- The members after it. -/
  members : Row := {}
  deriving DecidableEq, Repr

namespace Bracket

def add (b : Bracket) (depth : Nat) : Bracket := { b with members := b.members.add depth }

def inner (b : Bracket) : Nat :=
  match b.left with
  | none => b.members.depth
  | some left => max left b.members.depth + 1

def operate (b : Bracket) : Bracket := ⟨some b.inner, {}⟩

end Bracket

def readMember (m : Mode) (cs : List Char) : Option (Atom × List Char) :=
  let found :=
    match cs with
    | [] => none
    | '\\' :: cs => readEscape m cs
    | c :: cs => some (.one c.toNat, cs)
  match found with
  | some (.one code, rest) => if m.unicode || code < 0x80 then some (.one code, rest) else none
  | some (.several, rest) => some (.several, rest)
  | some (.place, _) => none
  | none => none

/-- Whether a hyphen before some characters makes no range, because a hyphen or the end of the bracket
comes next, perhaps after white space and a number sign. -/
def standsAlone (m : Mode) (cs : List Char) : Bool :=
  let next :=
    if m.spaced then
      match cs.dropWhile isBlank with
      | '#' :: rest => rest.dropWhile isBlank
      | rest => rest
    else cs
  next.head? = some ']' || next.head? = some '-'

def afterRange? (m : Mode) (cs : List Char) : Option (List Char) :=
  match readMember m cs with
  | none => none
  | some (first, rest) =>
    match m.skip rest with
    | '-' :: more =>
      if standsAlone m more then some ('-' :: more)
      else
        match first, readMember m (m.skip more) with
        | .one low, some (.one high, rest) => if low ≤ high then some rest else none
        | _, _ => none
    | rest => some rest

def classNames : List String :=
  ["alnum", "alpha", "ascii", "blank", "cntrl", "digit", "graph", "lower", "print", "punct", "space",
    "upper", "word", "xdigit"]

/-- Whether a named class is negated, and what follows it; it begins after its opening bracket. -/
def readNamed? (cs : List Char) : Option (Bool × List Char) :=
  match cs with
  | ':' :: cs =>
    let negated := cs.head? = some '^'
    let name := if negated then cs.tail else cs
    (classNames.findSome? fun known => after? (known ++ ":]").toList name).map fun rest =>
      (negated, rest)
  | _ => none

/-- The hyphens at the beginning of a bracket stand for themselves. -/
def afterHyphens (m : Mode) (b : Bracket) : List Char → Bracket × List Char
  | '-' :: cs => afterHyphens m (b.add 0) (m.skip cs)
  | cs => (b, cs)
termination_by cs => cs.length
decreasing_by
  have := m.length_skip_le cs
  simp only [List.length_cons]
  omega

/-- A bracket that begins, after its opening sign: perhaps it is negated, and hyphens or a closing sign
stand for themselves. -/
def opened? (m : Mode) (cs : List Char) : Option (Bracket × List Char) :=
  let members? : Option (List Char) :=
    match m.skip cs with
    | '^' :: rest => if m.unicode then some (m.skip rest) else none
    | rest => some rest
  members?.map fun cs =>
    match cs with
    | ']' :: rest => (({} : Bracket).add 0, m.skip rest)
    | cs => afterHyphens m {} cs

/-- The open brackets after one more element, innermost first, and what follows it. -/
def element? (m : Mode) (b : Bracket) (outer : List Bracket) (cs : List Char) :
    Option (List Bracket × List Char) :=
  match m.skip cs with
  | [] => none
  | '[' :: rest =>
    match readNamed? rest with
    | some (negated, rest) => if negated && !m.unicode then none else some (b.add 0 :: outer, rest)
    | none => (opened? m rest).map fun found => (found.1 :: b :: outer, found.2)
  | ']' :: rest =>
    match outer with
    | [] => none
    | around :: outer => some (around.add (b.inner + 1) :: outer, rest)
  | '&' :: '&' :: rest => some (b.operate :: outer, rest)
  | '-' :: '-' :: rest => some (b.operate :: outer, rest)
  | '~' :: '~' :: rest => some (b.operate :: outer, rest)
  | cs => (afterRange? m cs).map fun rest => (b.add 0 :: outer, rest)

/-- The depth of the brackets in a list but the last, one inside the other, and what follows the
outermost. The last one stands for what is around them all. -/
def closed? (m : Mode) (brackets : List Bracket) (cs : List Char) : Option (Nat × List Char) :=
  match brackets with
  | [] => none
  | [around] => some (around.members.deepest, cs)
  | b :: outer =>
    match element? m b outer cs with
    | none => none
    | some (brackets, rest) => if rest.length < cs.length then closed? m brackets rest else none
termination_by cs.length

/-- The depth of a bracket, which begins after its opening sign, and what follows it. -/
def readBracket (m : Mode) (cs : List Char) : Option (Nat × List Char) :=
  match opened? m cs with
  | none => none
  | some (b, rest) => closed? m [b, {}] rest

end UnusedAssets.ValuePattern
