import UnusedAssets.Pattern.Basic

/-!
# Written form of patterns

The usual notation of regular expressions: `\s` for blanks, brackets for classes, `(?:a|b)` for a
choice, parentheses for groups.
-/

namespace UnusedAssets

def Pattern.special : List Char :=
  ['\\', '.', '+', '*', '?', '(', ')', '|', '[', ']', '\x7b', '\x7d', '^', '$']

def Pattern.quoted (text : String) : String :=
  String.ofList (text.toList.flatMap fun c => if c ∈ special then ['\\', c] else [c])

def ClassPart.source : ClassPart → String
  | .blank => "\\s"
  | .span first last => String.ofList [first, '-', last]
  | .only c => if c = '\\' || c = ']' then String.ofList ['\\', c] else String.ofList [c]

def CharClass.source (k : CharClass) : String :=
  if k = ⟨[.blank], false⟩ then ClassPart.blank.source
  else "[" ++ (if k.negated then "^" else "") ++ String.join (k.parts.map (·.source)) ++ "]"

def Piece.source : Piece → String
  | .literal t => Pattern.quoted t
  | .choice ts => "(?:" ++ "|".intercalate (ts.map Pattern.quoted) ++ ")"
  | .optional t =>
    if t.length = 1 then Pattern.quoted t ++ "?" else "(?:" ++ Pattern.quoted t ++ ")?"
  | .single k => k.source
  | .many k => k.source ++ "*"
  | .some k => k.source ++ "+"

def Element.source : Element → String
  | .piece p => p.source
  | .group ps => "(" ++ String.join (ps.map (·.source)) ++ ")"

def Pattern.source (p : Pattern) : String := String.join (p.map (·.source))

end UnusedAssets
