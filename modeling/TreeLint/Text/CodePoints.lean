/-! Sets of characters, given as ascending ranges of code points. -/

namespace TreeLint

/-- Ascending ranges of code points, both ends included. -/
abbrev CodePoints := List (Nat × Nat)

namespace CodePoints

/-- Whether a code point lies in one of the ranges. The search ends at the first range that starts
past it. -/
def contains : CodePoints → Nat → Bool
  | [], _ => false
  | (low, high) :: rest, point =>
    if point < low then false else point ≤ high || contains rest point

end CodePoints

end TreeLint
