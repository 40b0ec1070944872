/-!
# Ranges of code points

Properties of characters are kept as lists of closed ranges of code points.
-/

namespace UnusedAssets.Text

def inRanges (ranges : List (Nat × Nat)) (c : Char) : Bool :=
  ranges.any fun r => r.1 ≤ c.toNat && c.toNat ≤ r.2

end UnusedAssets.Text
