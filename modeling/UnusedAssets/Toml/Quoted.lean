import UnusedAssets.Text.Hex
import UnusedAssets.Toml.Reader

/-!
# Texts in quotes

Four forms: on one line or on several, with escapes between double quotes or as it stands between
single quotes. On several lines a text may end in one or two quotes of its own, and ends of lines are
read as line feeds.
-/

namespace UnusedAssets.Toml

open Text

def natOf (base : Nat) (digits : List Char) : Nat :=
  digits.foldl (fun n c => n * base + (Hex.value? c).getD 0) 0

/-- A character by its code, in `n` digits of base sixteen. -/
def codePoint (n : Nat) : Reader Char := fun cs =>
  match takeExactly n Hex.isDigit cs with
  | none => none
  | some (digits, rest) =>
    let code := natOf 16 digits
    if code.isValidChar then some (Char.ofNat code, rest) else none

/-- The character that an escape stands for, after its backslash. -/
def escape : Reader Char
  | 'b' :: cs => some ('\x08', cs)
  | 't' :: cs => some ('\t', cs)
  | 'n' :: cs => some ('\n', cs)
  | 'f' :: cs => some ('\x0c', cs)
  | 'r' :: cs => some ('\r', cs)
  | '"' :: cs => some ('"', cs)
  | '\\' :: cs => some ('\\', cs)
  | 'u' :: cs => codePoint 4 cs
  | 'U' :: cs => codePoint 8 cs
  | _ => none

def basicRest : Reader (List Char)
  | [] => none
  | c :: cs =>
    if c = '"' then some ([], cs)
    else if c = '\\' then
      match escape cs with
      | none => none
      | some (d, rest) =>
        if rest.length < (c :: cs).length then
          (basicRest rest).map fun r => (d :: r.1, r.2)
        else none
    else if isPlain c then (basicRest cs).map fun r => (c :: r.1, r.2)
    else none
termination_by cs => cs.length
decreasing_by all_goals simp only [List.length_cons] at *; omega

def literalRest : Reader (List Char)
  | [] => none
  | c :: cs =>
    if c = '\'' then some ([], cs)
    else if isPlain c then (literalRest cs).map fun r => (c :: r.1, r.2)
    else none

def skipFolds (cs : List Char) : List Char :=
  match newline? (skipSpace cs) with
  | none => skipSpace cs
  | some rest => if rest.length < cs.length then skipFolds rest else rest
termination_by cs.length

/-- Passes over the end of a line and all blanks and ends of lines after it. -/
def foldedLine? (cs : List Char) : Option (List Char) :=
  (newline? (skipSpace cs)).map skipFolds

/-- The rest of a text on several lines, with escapes if it stands between double quotes. -/
def multilineRest (quote : Char) (escapes : Bool) : Reader (List Char)
  | [] => none
  | c :: cs =>
    if c = quote then
      let run := (c :: cs).takeWhile (· == quote)
      let rest := (c :: cs).dropWhile (· == quote)
      if run.length < 3 then
        if rest.length < (c :: cs).length then
          (multilineRest quote escapes rest).map fun r => (run ++ r.1, r.2)
        else none
      else if run.length ≤ 5 then some (run.drop 3, rest)
      else none
    else if escapes && c = '\\' then
      match foldedLine? cs with
      | some rest =>
        if rest.length < (c :: cs).length then multilineRest quote escapes rest else none
      | none =>
        match escape cs with
        | none => none
        | some (d, rest) =>
          if rest.length < (c :: cs).length then
            (multilineRest quote escapes rest).map fun r => (d :: r.1, r.2)
          else none
    else
      match newline? (c :: cs) with
      | some rest =>
        if rest.length < (c :: cs).length then
          (multilineRest quote escapes rest).map fun r => ('\n' :: r.1, r.2)
        else none
      | none =>
        if isPlain c then (multilineRest quote escapes cs).map fun r => (c :: r.1, r.2)
        else none
termination_by cs => cs.length
decreasing_by all_goals simp only [List.length_cons] at *; omega

def afterFirstNewline (cs : List Char) : List Char := (newline? cs).getD cs

/-- A text in quotes, as a value. -/
def quoted : Reader String := fun cs =>
  let read :=
    match cs with
    | '"' :: '"' :: '"' :: rest => multilineRest '"' true (afterFirstNewline rest)
    | '\'' :: '\'' :: '\'' :: rest => multilineRest '\'' false (afterFirstNewline rest)
    | '"' :: rest => basicRest rest
    | '\'' :: rest => literalRest rest
    | _ => none
  read.map fun r => (String.ofList r.1, r.2)

end UnusedAssets.Toml
