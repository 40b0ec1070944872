/-!
# Time stamps

A moment in the proleptic Gregorian calendar, written as date, `T`, time of day and `Z`. A year
outside 0 to 9999 has a sign and at least four digits. A leap second is counted as a second or more
of nanoseconds after second 59.
-/

namespace UnusedAssets

/-- Seconds since the beginning of 1970, and nanoseconds. -/
structure Timestamp where
  seconds : Int
  nanos : Nat := 0
  deriving DecidableEq, Repr

namespace Timestamp

/-- Year, month and day, counted from a number of days since the beginning of 1970. The calendar
repeats after 400 years; the years in it are counted from the first of March. -/
def date (days : Int) : Int × Nat × Nat :=
  let shifted := days + 719468
  let era := shifted.fdiv 146097
  let day := (shifted.fmod 146097).toNat
  let year := (day - day / 1460 + day / 36524 - day / 146096) / 365
  let dayOfYear := day - (365 * year + year / 4 - year / 100)
  let march := (5 * dayOfYear + 2) / 153
  let month := if march < 10 then march + 3 else march - 9
  let first := if month ≤ 2 then 1 else 0
  (era * 400 + year + first, month, dayOfYear - (153 * march + 2) / 5 + 1)

def padded (width n : Nat) : String :=
  let digits := toString n
  String.ofList (List.replicate (width - digits.length) '0') ++ digits

def yearText (year : Int) : String :=
  if year < 0 then "-" ++ padded 4 year.natAbs
  else if 9999 < year then "+" ++ padded 4 year.natAbs
  else padded 4 year.natAbs

def text (t : Timestamp) : String :=
  let (year, month, day) := date (t.seconds.fdiv 86400)
  let second := (t.seconds.fmod 86400).toNat
  let leap := if 1000000000 ≤ t.nanos then 1 else 0
  yearText year ++ "-" ++ padded 2 month ++ "-" ++ padded 2 day ++ "T" ++
    padded 2 (second / 3600) ++ ":" ++ padded 2 (second / 60 % 60) ++ ":" ++
    padded 2 (second % 60 + leap) ++ "Z"

end Timestamp

end UnusedAssets
