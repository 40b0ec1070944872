import UnusedAssets.Toml.Item
import UnusedAssets.Toml.Number

/-!
# Keys and values

Arrays may run over several lines and end with a comma; tables between braces may not. Both nest less
than `depthLimit` deep, and a key has fewer parts than that.
-/

namespace UnusedAssets.Toml

/-- Arrays and tables between braces do not nest this deep. -/
def depthLimit : Nat := 80

def isBare (c : Char) : Bool :=
  c.isAlpha || c.isDigit || c == '_' || c == '-'

def simpleKey : Reader String
  | '"' :: cs => (basicRest cs).map fun r => (String.ofList r.1, r.2)
  | '\'' :: cs => (literalRest cs).map fun r => (String.ofList r.1, r.2)
  | cs =>
    match takeWhile isBare cs with
    | ([], _) => none
    | (name, rest) => some (String.ofList name, rest)

/-- The parts of a key between dots, blanks around them passed over. -/
def keyParts (cs : List Char) : Option (List String × List Char) :=
  match simpleKey (skipSpace cs) with
  | none => none
  | some (name, rest) =>
    match skipSpace rest with
    | '.' :: more =>
      if more.length < cs.length then (keyParts more).map fun r => (name :: r.1, r.2) else none
    | left => some ([name], left)
termination_by cs.length

/-- A key: all parts but the last, and the last. -/
def key : Reader (List String × String) := fun cs =>
  match keyParts cs with
  | none => none
  | some (parts, rest) =>
    if depthLimit ≤ parts.length then none
    else (parts.getLast?).map fun last => ((parts.dropLast, last), rest)

def arrayRest (item : Reader Item) (cs : List Char) : Option (List Item × List Char) :=
  match skipLines cs with
  | none => none
  | some (']' :: rest) => some ([], rest)
  | some start =>
    match item start with
    | none => none
    | some (x, rest) =>
      match skipLines rest with
      | some (']' :: left) => some ([x], left)
      | some (',' :: left) =>
        if left.length < cs.length then
          (arrayRest item left).map fun r => (x :: r.1, r.2)
        else none
      | _ => none
termination_by cs.length

def assignment (item : Reader Item) : Reader Assignment := fun cs =>
  match key cs with
  | some ((path, last), '=' :: rest) =>
    (item (skipSpace rest)).map fun r => (⟨path, last, r.1⟩, r.2)
  | _ => none

/-- The assignments of a table between braces, from the first on. -/
def bracedRest (item : Reader Item) (cs : List Char) : Option (List Assignment × List Char) :=
  match assignment item cs with
  | none => none
  | some (a, rest) =>
    match skipSpace rest with
    | '\x7d' :: left => some ([a], left)
    | ',' :: left =>
      if left.length < cs.length then (bracedRest item left).map fun r => (a :: r.1, r.2)
      else none
    | _ => none
termination_by cs.length

/-- A table between braces, after the opening one. -/
def braced (item : Reader Item) : Reader Item := fun cs =>
  match skipSpace cs with
  | '\x7d' :: rest => some (.table .braced [], rest)
  | start =>
    match bracedRest item start with
    | none => none
    | some (as, rest) =>
      (Members.assignAll .braced [] as).map fun ms => (.table .braced ms, rest)

/-- A number, a date or a time. -/
def numeric : Reader Item := fun cs =>
  match dateTime? cs with
  | some rest => some (.dateTime, rest)
  | none =>
    match float cs with
    | some (x, rest) => some (.float x, rest)
    | none => (integer cs).map fun r => (.integer r.1, r.2)

def scalar : Reader Item
  | 't' :: 'r' :: 'u' :: 'e' :: rest => some (.boolean true, rest)
  | 'f' :: 'a' :: 'l' :: 's' :: 'e' :: rest => some (.boolean false, rest)
  | cs =>
    match quoted cs with
    | some (s, rest) => some (.string s, rest)
    | none => numeric cs

/-- A value in which arrays and tables nest at most so deep. -/
def value : Nat → Reader Item
  | 0 => scalar
  | depth + 1 => fun cs =>
    match cs with
    | '[' :: rest => (arrayRest (value depth) rest).map fun r => (.array r.1, r.2)
    | '\x7b' :: rest => braced (value depth) rest
    | cs => scalar cs

end UnusedAssets.Toml
