import UnusedAssets.Decimal.Binary64

/-!
# Shortest decimals

A number is written with the fewest digits that read back as the same number, the nearest decimal
of that length, without an exponent, and always with a decimal point.
-/

namespace UnusedAssets.Binary64

/-- The interval of values that read as a positive number, and its value, all over one denominator. -/
structure Reading where
  low : Nat
  value : Nat
  high : Nat
  den : Nat
  /-- Whether the ends belong to the interval. -/
  closed : Bool

/-- The decimals that read as `mantissa * 2 ^ exponent`. The gap to the next smaller number is half
as wide at a power of two. -/
def reading (mantissa : Nat) (exponent : Int) : Reading :=
  let gap := if mantissa = Nat.pow 2 52 && minExponent < exponent then 1 else 2
  let (num, den) := inUnits 1 1 (2 - exponent)
  ⟨(4 * mantissa - gap) * num, 4 * mantissa * num, (4 * mantissa + 2) * num, den,
    mantissa % 2 = 0⟩

/-- The multiple of `10 ^ k` nearest to the value among those that read back, as a factor. -/
def Reading.onGrid? (r : Reading) (k : Int) : Option Nat :=
  let (up, down) : Nat × Nat :=
    match k with
    | .ofNat e => (1, Nat.pow 10 e)
    | .negSucc e => (Nat.pow 10 (e + 1), 1)
  let unit := r.den * down
  let value := r.value * up
  let inside (d : Nat) : Bool :=
    let x := d * unit
    (r.low * up < x && x < r.high * up) || (r.closed && (x = r.low * up || x = r.high * up))
  let d := value / unit
  match inside d, inside (d + 1) with
  | true, true => if value - d * unit < (d + 1) * unit - value then some d else some (d + 1)
  | true, false => some d
  | false, true => some (d + 1)
  | false, false => none

/-- The exponents of the grids to try, coarsest first. -/
def gridExponents : List Int := (List.range 660).map fun i : Nat => (310 : Int) - i

/-- The digits and the exponent of the shortest decimal that reads as the number. -/
def shortest (mantissa : Nat) (exponent : Int) : Nat × Int :=
  if mantissa = 0 then (0, 0)
  else
    let r := reading mantissa exponent
    (gridExponents.findSome? fun k => (r.onGrid? k).map fun d => (d, k)).getD (0, 0)

def positional (digits : Nat) (exponent : Int) : String :=
  let s := toString digits
  match exponent with
  | .ofNat e => s ++ String.ofList (List.replicate e '0') ++ ".0"
  | .negSucc e =>
    let places := e + 1
    let s := String.ofList (List.replicate (places + 1 - s.length) '0') ++ s
    let cut := s.length - places
    String.ofList (s.toList.take cut) ++ "." ++ String.ofList (s.toList.drop cut)

def text : Binary64 → String
  | .nan => "NaN"
  | .infinite negative => if negative then "-inf" else "inf"
  | .finite negative mantissa exponent =>
    let (d, k) := shortest mantissa exponent
    (if negative then "-" else "") ++ positional d k

end UnusedAssets.Binary64
