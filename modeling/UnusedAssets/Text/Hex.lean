import UnusedAssets.Text.Utf8

/-!
# Base sixteen

Digits of base sixteen, and bytes written as two digits each. `decode?_encode` says that written bytes
read back.
-/

namespace UnusedAssets.Text.Hex

def digit (n : Nat) : Char :=
  if n < 10 then Char.ofNat (48 + n) else Char.ofNat (87 + n)

/-- The value of a digit; small and capital letters count the same. -/
def value? (c : Char) : Option Nat :=
  if c.isDigit then some (c.toNat - 48)
  else if 'a' ≤ c && c ≤ 'f' then some (c.toNat - 87)
  else if 'A' ≤ c && c ≤ 'F' then some (c.toNat - 55)
  else none

def isDigit (c : Char) : Bool := (value? c).isSome

def encode : Bytes → List Char
  | [] => []
  | b :: bs => digit (b.toNat / 16) :: digit (b.toNat % 16) :: encode bs

def decode? : List Char → Option Bytes
  | [] => some []
  | [_] => none
  | c :: d :: rest =>
    match value? c, value? d with
    | some high, some low => (decode? rest).map fun bs => UInt8.ofNat (high * 16 + low) :: bs
    | _, _ => none

theorem value?_digit : ∀ n < 16, value? (digit n) = some n := by decide

theorem decode?_encode (bs : Bytes) : decode? (encode bs) = some bs := by
  induction bs with
  | nil => rfl
  | cons b bs ih =>
    have hb : b.toNat < 256 := b.toNat_lt
    simp only [encode, decode?, ih, value?_digit (b.toNat / 16) (by omega),
      value?_digit (b.toNat % 16) (by omega), Option.map_some]
    rw [show b.toNat / 16 * 16 + b.toNat % 16 = b.toNat by omega, UInt8.ofNat_toNat]

end UnusedAssets.Text.Hex
