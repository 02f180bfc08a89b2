/-!
# Ranges of code points

Properties of characters are tables of ranges of code points, both ends included.

## Main definitions

* `Text.inRanges`: a code point in one of some ranges

## Main results

* `Text.inRanges_append`: tables may be cut in two
-/

namespace LinterSuite.Text

/-- A code point in one of some ranges. -/
def inRanges (ranges : List (Nat × Nat)) (n : Nat) : Bool :=
  ranges.any fun r => decide (r.1 ≤ n ∧ n ≤ r.2)

theorem inRanges_append (xs ys : List (Nat × Nat)) (n : Nat) :
    inRanges (xs ++ ys) n = (inRanges xs n || inRanges ys n) := by
  simp [inRanges]

end LinterSuite.Text
