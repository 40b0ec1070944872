/-!
# Reading TOML text

A reader takes something off the beginning of a text, or fails. Here are the characters of TOML, and
what may stand between its items.
-/

namespace UnusedAssets.Toml

/-- What was read, and what is left. -/
abbrev Reader (α : Type) := List Char → Option (α × List Char)

def isSpace (c : Char) : Bool := c == ' ' || c == '\t'

/-- The characters that a comment or a text in single quotes may hold. -/
def isPlain (c : Char) : Bool := c == '\t' || (32 ≤ c.toNat && c.toNat != 127)

def skipSpace (cs : List Char) : List Char := cs.dropWhile isSpace

def newline? : List Char → Option (List Char)
  | '\n' :: cs => some cs
  | '\r' :: '\n' :: cs => some cs
  | _ => none

/-- Passes over a comment, up to the end of its line. -/
def skipComment : List Char → List Char
  | '#' :: cs => cs.dropWhile isPlain
  | cs => cs

/-- Passes over the rest of a line that holds nothing more than a comment. -/
def lineEnd? (cs : List Char) : Option (List Char) :=
  match skipComment (skipSpace cs) with
  | [] => some []
  | rest => newline? rest

/-- Passes over blanks, comments and ends of lines. A comment has to end with its line. -/
def skipLines (cs : List Char) : Option (List Char) :=
  let rest := skipSpace cs
  match rest with
  | '#' :: _ | '\n' :: _ | '\r' :: _ =>
    match newline? (skipComment rest) with
    | none => none
    | some next => if next.length < cs.length then skipLines next else none
  | _ => some rest
termination_by cs.length

/-- The next `n` characters, if all of them pass a test. -/
def takeExactly (n : Nat) (p : Char → Bool) : Reader (List Char) := fun cs =>
  let taken := cs.take n
  if taken.length = n && taken.all p then some (taken, cs.drop n) else none

def takeWhile (p : Char → Bool) (cs : List Char) : List Char × List Char :=
  (cs.takeWhile p, cs.dropWhile p)

end UnusedAssets.Toml
