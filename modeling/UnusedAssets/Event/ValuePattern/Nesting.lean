/-!
# Nesting in value patterns

How deep the parts of a pattern lie one inside the other. A single atom has depth zero. A group, a
repetition, a bracket and an operator in one are one deeper than the deepest part that they hold, and
so is a row of several parts; but a row of one part is as deep as this part.
-/

namespace UnusedAssets.ValuePattern

/-- How deep a pattern may be. -/
def nestingLimit : Nat := 250

structure Row where
  size : Nat := 0
  /-- The depth of the deepest part. -/
  deepest : Nat := 0
  deriving DecidableEq, Repr

namespace Row

def add (r : Row) (depth : Nat) : Row := ⟨r.size + 1, max r.deepest depth⟩

def deepen (r : Row) (depth : Nat) : Row := { r with deepest := max r.deepest depth }

def depth (r : Row) : Nat := if r.size ≤ 1 then r.deepest else r.deepest + 1

end Row

end UnusedAssets.ValuePattern
