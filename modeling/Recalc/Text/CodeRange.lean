/-!
# Classes of characters given by code point ranges
-/

namespace Recalc.Text

/-- Whether a character's code point lies in one of the closed ranges. -/
def inRanges (ranges : List (Nat × Nat)) (c : Char) : Bool :=
  ranges.any fun range => range.1 ≤ c.toNat && c.toNat ≤ range.2

end Recalc.Text
