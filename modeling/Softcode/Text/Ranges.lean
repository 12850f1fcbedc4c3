/-!
# Sets of characters given by ranges

A property of characters is a list of ranges of code points in ascending order.
-/

namespace Softcode.Text

/-- The number lies in one of the ranges, which ascend. -/
def inRanges (n : Nat) : List (Nat × Nat) → Bool
  | [] => false
  | (low, high) :: rest => if n < low then false else n ≤ high || inRanges n rest

end Softcode.Text
