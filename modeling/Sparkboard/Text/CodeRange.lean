/-!
# Ranges of characters

A property of characters is given as the ranges of code points that have it, in ascending order.
-/

namespace Sparkboard.Text

/-- Ranges of code points, each by its first and its last. -/
abbrev CodeRanges := List (Nat × Nat)

/-- Does the character lie in one of the ranges? -/
def CodeRanges.contain (ranges : CodeRanges) (c : Char) : Bool :=
  ranges.any fun r => r.1 ≤ c.toNat && c.toNat ≤ r.2

end Sparkboard.Text
