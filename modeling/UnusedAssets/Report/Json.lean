import UnusedAssets.Text.Hex

/-!
# JSON documents

The values of a report, and their text: two blanks for each level, one element a line, members in
the order in which they are given.
-/

namespace UnusedAssets

open Text

inductive Json where
  | count (n : Nat)
  | text (s : String)
  | array (elements : List Json)
  | object (members : List (String × Json))

namespace Json

def escaped (c : Char) : List Char :=
  if c = '"' then ['\\', '"']
  else if c = '\\' then ['\\', '\\']
  else if c = '\x08' then ['\\', 'b']
  else if c = '\t' then ['\\', 't']
  else if c = '\n' then ['\\', 'n']
  else if c = '\x0c' then ['\\', 'f']
  else if c = '\r' then ['\\', 'r']
  else if c.toNat < 32 then
    ['\\', 'u', '0', '0', Hex.digit (c.toNat / 16), Hex.digit (c.toNat % 16)]
  else [c]

def quoted (s : String) : String := "\"" ++ String.ofList (s.toList.flatMap escaped) ++ "\""

/-- A line break, and the blanks before an element of the given level. -/
def newline (level : Nat) : String := "\n" ++ String.join (List.replicate level "  ")

mutual

def prettyAt (level : Nat) : Json → String
  | .count n => toString n
  | .text s => quoted s
  | .array [] => "[]"
  | .array (v :: vs) =>
    "[" ++ newline (level + 1) ++ prettyAt (level + 1) v ++ elementsAt (level + 1) vs ++
      newline level ++ "]"
  | .object [] => "\x7b\x7d"
  | .object ((name, v) :: ms) =>
    "\x7b" ++ newline (level + 1) ++ quoted name ++ ": " ++ prettyAt (level + 1) v ++
      membersAt (level + 1) ms ++ newline level ++ "\x7d"

/-- The elements of an array but the first. -/
def elementsAt (level : Nat) : List Json → String
  | [] => ""
  | v :: vs => "," ++ newline level ++ prettyAt level v ++ elementsAt level vs

/-- The members of an object but the first. -/
def membersAt (level : Nat) : List (String × Json) → String
  | [] => ""
  | (name, v) :: ms =>
    "," ++ newline level ++ quoted name ++ ": " ++ prettyAt level v ++ membersAt level ms

end

def pretty (v : Json) : String := prettyAt 0 v

end Json

end UnusedAssets
