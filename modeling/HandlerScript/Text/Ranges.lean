/-! Sets of characters as lists of ranges of code points.

    The lists are in increasing order, and a range has its first and last code point in it. -/

namespace HandlerScript.Text

/-- Whether a code point lies in one of some ranges. -/
def inRanges (ranges : List (Nat × Nat)) (n : Nat) : Bool :=
  ranges.any fun r => r.1 ≤ n && n ≤ r.2

end HandlerScript.Text
