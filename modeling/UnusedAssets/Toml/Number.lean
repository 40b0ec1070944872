import UnusedAssets.Decimal.Binary64
import UnusedAssets.Toml.Quoted

/-!
# Numbers, dates and times

Integers have 64 bits. A positive decimal too large for the floating-point format is no number, while
a negative one is infinite. Dates have to exist; of a moment only its form matters.
-/

namespace UnusedAssets.Toml

open Text

/-- Digits of a base, with single underscores between them. -/
def digits (p : Char → Bool) : Reader (List Char)
  | [] => none
  | c :: cs =>
    if p c then
      match cs with
      | '_' :: rest =>
        match digits p rest with
        | some (ds, left) => some (c :: ds, left)
        | none => none
      | rest =>
        match digits p rest with
        | some (ds, left) => some (c :: ds, left)
        | none => some ([c], rest)
    else none

/-- An optional sign: whether it is a minus, and what follows. -/
def sign : List Char → Bool × List Char
  | '+' :: cs => (false, cs)
  | '-' :: cs => (true, cs)
  | cs => (false, cs)

/-- Decimal digits, no zero before another. -/
def wholeDigits : Reader (List Char)
  | '0' :: cs => some (['0'], cs)
  | cs => digits Char.isDigit cs

def fits64 (n : Int) : Bool := -9223372036854775808 ≤ n && n ≤ 9223372036854775807

def fitting (n : Int) (rest : List Char) : Option (Int × List Char) :=
  if fits64 n then some (n, rest) else none

def based (base : Nat) (p : Char → Bool) : Reader Int := fun cs =>
  match digits p cs with
  | none => none
  | some (ds, rest) => fitting (natOf base ds) rest

def integer : Reader Int
  | '0' :: 'x' :: cs => based 16 Hex.isDigit cs
  | '0' :: 'o' :: cs => based 8 (fun c => '0' ≤ c && c ≤ '7') cs
  | '0' :: 'b' :: cs => based 2 (fun c => c == '0' || c == '1') cs
  | cs =>
    let (negative, rest) := sign cs
    match wholeDigits rest with
    | none => none
    | some (ds, rest) =>
      let n : Int := natOf 10 ds
      fitting (if negative then -n else n) rest

/-- An exponent, if one follows. -/
def exponentPart : List Char → Option (Option Int × List Char)
  | c :: cs =>
    if c = 'e' || c = 'E' then
      let (negative, rest) := sign cs
      match digits Char.isDigit rest with
      | none => none
      | some (ds, rest) =>
        let n : Int := natOf 10 ds
        some (some (if negative then -n else n), rest)
    else some (none, c :: cs)
  | [] => some (none, [])

/-- Digits after a point, if one follows. -/
def fractionPart : List Char → Option (Option (List Char) × List Char)
  | '.' :: cs => (digits Char.isDigit cs).map fun r => (some r.1, r.2)
  | cs => some (none, cs)

def decimal : Reader Binary64 := fun cs =>
  let (negative, rest) := sign cs
  match wholeDigits rest with
  | none => none
  | some (whole, rest) =>
    match fractionPart rest with
    | none => none
    | some (fraction, rest) =>
      match exponentPart rest with
      | none => none
      | some (exponent, rest) =>
        if fraction.isNone && exponent.isNone then none
        else
          let places := fraction.getD []
          let x := Binary64.ofDecimal negative (natOf 10 (whole ++ places))
            (exponent.getD 0 - places.length)
          if x = .infinite false then none else some (x, rest)

/-- `inf` and `nan`, with an optional sign. -/
def specialFloat : Reader Binary64 := fun cs =>
  let (negative, rest) := sign cs
  match rest with
  | 'i' :: 'n' :: 'f' :: rest => some (.infinite negative, rest)
  | 'n' :: 'a' :: 'n' :: rest => some (.nan, rest)
  | _ => none

def float : Reader Binary64 := fun cs => decimal cs <|> specialFloat cs

/-- A number of so many digits within bounds. -/
def field (width low high : Nat) : Reader Nat := fun cs =>
  match takeExactly width Char.isDigit cs with
  | none => none
  | some (ds, rest) =>
    let n := natOf 10 ds
    if low ≤ n && n ≤ high then some (n, rest) else none

def expect (c : Char) : List Char → Option (List Char)
  | d :: cs => if c = d then some cs else none
  | [] => none

def daysIn (year month : Nat) : Nat :=
  if month = 2 then
    if year % 4 = 0 && (year % 100 != 0 || year % 400 = 0) then 29 else 28
  else if month = 4 || month = 6 || month = 9 || month = 11 then 30
  else 31

def date? (cs : List Char) : Option (List Char) := do
  let (year, cs) ← field 4 0 9999 cs
  let cs ← expect '-' cs
  let (month, cs) ← field 2 1 12 cs
  let cs ← expect '-' cs
  let (_, cs) ← field 2 1 (daysIn year month) cs
  return cs

/-- Passes over a fraction of a second, if one follows. -/
def skipFraction (cs : List Char) : List Char :=
  match cs with
  | '.' :: c :: rest => if c.isDigit then rest.dropWhile Char.isDigit else cs
  | _ => cs

def time? (cs : List Char) : Option (List Char) := do
  let (_, cs) ← field 2 0 23 cs
  let cs ← expect ':' cs
  let (_, cs) ← field 2 0 59 cs
  let cs ← expect ':' cs
  let (_, cs) ← field 2 0 60 cs
  return skipFraction cs

/-- Passes over the offset of a time zone, in hours and minutes. -/
def offset? (cs : List Char) : Option (List Char) := do
  let (_, cs) ← field 2 0 23 cs
  let cs ← expect ':' cs
  let (_, cs) ← field 2 0 59 cs
  return cs

/-- Passes over a time zone, if one follows. -/
def skipZone (cs : List Char) : List Char :=
  match cs with
  | 'Z' :: rest | 'z' :: rest => rest
  | '+' :: rest | '-' :: rest => (offset? rest).getD cs
  | _ => cs

/-- Passes over a date, a time of day or both. -/
def dateTime? (cs : List Char) : Option (List Char) :=
  match date? cs with
  | none => time? cs
  | some rest =>
    match rest with
    | c :: more =>
      if c = 'T' || c = 't' || c = ' ' then
        match time? more with
        | some left => some (skipZone left)
        | none => some rest
      else some rest
    | [] => some []

end UnusedAssets.Toml
