import UnusedAssets.Text.Invisible

/-!
# Texts shown in messages

A text between double quotes in which every character can be told: quotes and backslashes follow a
backslash, the usual controls are named, and what is invisible stands as its code in base sixteen.
-/

namespace UnusedAssets.Text

def shownChar (c : Char) : List Char :=
  if c = '\x00' then ['\\', '0']
  else if c = '\t' then ['\\', 't']
  else if c = '\r' then ['\\', 'r']
  else if c = '\n' then ['\\', 'n']
  else if c = '"' then ['\\', '"']
  else if c = '\\' then ['\\', '\\']
  else if isInvisible c then
    ['\\', 'u', '\x7b'] ++ Nat.toDigits 16 c.toNat ++ ['\x7d']
  else [c]

def shown (s : String) : String := "\"" ++ String.ofList (s.toList.flatMap shownChar) ++ "\""

end UnusedAssets.Text
