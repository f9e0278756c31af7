/-!
# Ranges of characters

A property of characters that a standard lays down by table is kept as the
ascending list of its ranges of code points, both ends included.

Main results:

- Theorem {lit}`inRanges_eq_true_iff`: a character has the property when some
  range of the table holds its code point.
-/

namespace NestedHover

namespace Text

/-- Whether the code point of a character lies in one of the ranges. -/
def inRanges (ranges : List (Nat × Nat)) (c : Char) : Bool :=
  ranges.any fun range => range.1 ≤ c.toNat && c.toNat ≤ range.2

theorem inRanges_eq_true_iff {ranges : List (Nat × Nat)} {c : Char} :
    inRanges ranges c = true ↔
      ∃ range ∈ ranges, range.1 ≤ c.toNat ∧ c.toNat ≤ range.2 := by
  simp [inRanges]

end Text

end NestedHover
