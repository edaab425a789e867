/-!
# Sets of code points

A character class of a standard is a finite list of ranges of code points. This module gives such a
list its meaning as a set of characters; the classes themselves stand in modules of their own.
-/

namespace StraightLine

/-- A set of code points, given by ranges with both ends included. -/
structure CodePoints where
  /-- First and last code point of each range. -/
  ranges : List (Nat × Nat)

/-- Whether some range holds the character. -/
def CodePoints.contains (s : CodePoints) (c : Char) : Bool :=
  s.ranges.any fun r => r.1 ≤ c.toNat && c.toNat ≤ r.2

end StraightLine
