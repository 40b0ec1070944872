/-!
# Text held in bytes

Strict decoding accepts well-formed UTF-8 only. Lenient decoding reads the same characters and writes
one replacement character for each maximal ill-formed piece.
-/

namespace UnusedAssets.Text

abbrev Bytes := List UInt8

def encode (s : String) : Bytes := s.toUTF8.data.toList

/-- Where bytes are asked for, a text stands for those that spell it. -/
instance : Coe String Bytes := ⟨encode⟩

/-- The text that the bytes spell, if they are well formed. -/
def decode? (bytes : Bytes) : Option String := String.fromUTF8? ⟨bytes.toArray⟩

/-- A written text reads back. -/
theorem decode?_encode (s : String) : decode? (encode s) = some s := by
  rw [decode?, encode, Array.toArray_toList]
  exact dif_pos s.isValidUTF8

/-- Texts are told apart by their bytes. -/
@[simp] theorem encode_inj {s t : String} : encode s = encode t ↔ s = t := by
  refine ⟨fun h => ?_, congrArg encode⟩
  have hread := congrArg decode? h
  rw [decode?_encode, decode?_encode] at hread
  exact Option.some.inj hread

def isContinuation (b : UInt8) : Bool := 0x80 ≤ b && b ≤ 0xBF

/-- Whether `second` may follow the first byte of a sequence of `width` bytes. -/
def admitsSecond (first second : UInt8) : Bool :=
  if first == 0xE0 then 0xA0 ≤ second && second ≤ 0xBF
  else if first == 0xED then 0x80 ≤ second && second ≤ 0x9F
  else if first == 0xF0 then 0x90 ≤ second && second ≤ 0xBF
  else if first == 0xF4 then 0x80 ≤ second && second ≤ 0x8F
  else isContinuation second

/-- The number of bytes that a sequence beginning with this byte has; 0 if none begins so. -/
def sequenceWidth (first : UInt8) : Nat :=
  if first < 0x80 then 1
  else if 0xC2 ≤ first && first ≤ 0xDF then 2
  else if 0xE0 ≤ first && first ≤ 0xEF then 3
  else if 0xF0 ≤ first && first ≤ 0xF4 then 4
  else 0

/-- The character that stands for an ill-formed piece. -/
def replacement : Char := '\uFFFD'

/-- The value bits of the continuation bytes, appended to those in `acc`. -/
def appendBits (acc : Nat) (bytes : Bytes) : Nat :=
  bytes.foldl (fun n b => n * 64 + (b.toNat - 0x80)) acc

/-- The character that begins with `first`, and how many bytes of `rest` belong to it. -/
def decodeFirst (first : UInt8) (rest : Bytes) : Char × Nat :=
  match sequenceWidth first, rest with
  | 1, _ => (Char.ofNat first.toNat, 0)
  | 2, b :: _ =>
    if isContinuation b then (Char.ofNat (appendBits (first.toNat - 0xC0) [b]), 1)
    else (replacement, 0)
  | 3, b :: more =>
    if admitsSecond first b then
      match more with
      | c :: _ =>
        if isContinuation c then (Char.ofNat (appendBits (first.toNat - 0xE0) [b, c]), 2)
        else (replacement, 1)
      | [] => (replacement, 1)
    else (replacement, 0)
  | 4, b :: more =>
    if admitsSecond first b then
      match more with
      | c :: d :: _ =>
        if isContinuation c then
          if isContinuation d then
            (Char.ofNat (appendBits (first.toNat - 0xF0) [b, c, d]), 3)
          else (replacement, 2)
        else (replacement, 1)
      | [c] => (replacement, if isContinuation c then 2 else 1)
      | [] => (replacement, 1)
    else (replacement, 0)
  | _, _ => (replacement, 0)

/-- The characters that the bytes spell after the first `skip` of them, ill-formed pieces replaced. -/
def lenientFrom : (skip : Nat) → Bytes → List Char
  | _, [] => []
  | skip + 1, _ :: rest => lenientFrom skip rest
  | 0, first :: rest =>
    let found := decodeFirst first rest
    found.1 :: lenientFrom found.2 rest

/-- The characters that the bytes spell, ill-formed pieces replaced. -/
def lenientChars (bytes : Bytes) : List Char := lenientFrom 0 bytes

/-- The text that the bytes spell, ill-formed pieces replaced. -/
def decodeLenient (bytes : Bytes) : String := String.ofList (lenientChars bytes)

end UnusedAssets.Text
