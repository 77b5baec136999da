/-! # Sets of characters given by ranges

A class of characters beyond ASCII is a list of inclusive ranges of code points in increasing
order. Looking a character up stops at the first range that ends at or after it. -/

namespace RequestGen.Text

/-- Whether `n` lies in one of the ranges, which are in increasing order. -/
def inRanges : List (Nat × Nat) → Nat → Bool
  | [], _ => false
  | (low, high) :: ranges, n => if n ≤ high then low ≤ n else inRanges ranges n

end RequestGen.Text
