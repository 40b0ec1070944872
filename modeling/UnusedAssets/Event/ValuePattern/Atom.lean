import UnusedAssets.Text.Blank
import UnusedAssets.Text.Hex

/-!
# Atoms of value patterns

Single characters and escapes, and the white space and comments that may stand between them. A pattern
stands between braces, so that no brace is closed in it: the escapes that need a closing brace never
come about.
-/

namespace UnusedAssets.ValuePattern

open Text

structure Mode where
  /-- Characters count as those of any script, not as bytes. -/
  unicode : Bool := true
  /-- White space and comments are skipped. -/
  spaced : Bool := false
  deriving DecidableEq, Repr

/-- The characters after white space and comments; `comment` says whether one is open. -/
def afterSpace (comment : Bool) : List Char → List Char
  | [] => []
  | c :: cs =>
    if comment then afterSpace (c ≠ '\n') cs
    else if isBlank c then afterSpace false cs
    else if c = '#' then afterSpace true cs
    else c :: cs

def Mode.skip (m : Mode) (cs : List Char) : List Char :=
  if m.spaced then afterSpace false cs else cs

theorem length_afterSpace_le (comment : Bool) (cs : List Char) :
    (afterSpace comment cs).length ≤ cs.length := by
  induction cs generalizing comment with
  | nil => simp [afterSpace]
  | cons c cs ih =>
    unfold afterSpace
    split
    · exact Nat.le_succ_of_le (ih _)
    · split
      · exact Nat.le_succ_of_le (ih _)
      · split
        · exact Nat.le_succ_of_le (ih _)
        · exact Nat.le_refl _

theorem Mode.length_skip_le (m : Mode) (cs : List Char) : (m.skip cs).length ≤ cs.length := by
  unfold Mode.skip
  split
  · exact length_afterSpace_le false cs
  · exact Nat.le_refl _

inductive Atom where
  | one (code : Nat)
  | several
  | place
  deriving DecidableEq, Repr

/-- The code that exactly `n` digits of base sixteen spell after `code`. -/
def readHex (m : Mode) : (n code : Nat) → List Char → Option (Nat × List Char)
  | 0, code, cs => some (code, cs)
  | _ + 1, _, [] => none
  | n + 1, code, c :: cs =>
    match Hex.value? c with
    | none => none
    | some d => readHex m n (code * 16 + d) (m.skip cs)

/-- An escape by a code; one of two digits stands for a byte where characters count as bytes. -/
def readCode (m : Mode) (n : Nat) (cs : List Char) : Option (Atom × List Char) :=
  match readHex m n 0 (m.skip cs) with
  | none => none
  | some (code, rest) =>
    if n = 2 && !m.unicode && 0x7F < code then none
    else if Nat.isValidChar code then some (.one code, rest)
    else none

def readCategory (m : Mode) (cs : List Char) : Option (Atom × List Char) :=
  match m.skip cs with
  | [] => none
  | c :: rest =>
    if m.unicode && c.toLower ∈ "clmnpsz".toList then some (.several, m.skip rest) else none

def readEscape (m : Mode) : List Char → Option (Atom × List Char)
  | [] => none
  | c :: cs =>
    if c = 'x' then readCode m 2 cs
    else if c = 'u' then readCode m 4 cs
    else if c = 'U' then readCode m 8 cs
    else if c = 'p' || c = 'P' then readCategory m cs
    else if c ∈ "dsw".toList then some (.several, cs)
    else if c ∈ "DSW".toList then if m.unicode then some (.several, cs) else none
    else if c = 'a' then some (.one 7, cs)
    else if c = 't' then some (.one 9, cs)
    else if c = 'n' then some (.one 10, cs)
    else if c = 'v' then some (.one 11, cs)
    else if c = 'f' then some (.one 12, cs)
    else if c = 'r' then some (.one 13, cs)
    else if c ∈ "Az".toList then some (.place, cs)
    else if c ∈ "bB<>".toList then if m.unicode then none else some (.place, cs)
    else if c.toNat < 0x80 && !c.isAlphanum then some (.one c.toNat, cs)
    else none

end UnusedAssets.ValuePattern
