/-!
# Classes of characters as ranges of code points

A class is a list of inclusive ranges, in ascending order and apart from each other.
`inRanges` decides membership; the order of the list is only needed for printing and proofs.
-/

namespace EntityModel.Text

/-- Membership of a code point in one of the inclusive ranges. -/
def inRanges (ranges : List (Nat × Nat)) (code : Nat) : Bool :=
  ranges.any fun range => range.1 ≤ code && code ≤ range.2

theorem inRanges_iff {ranges : List (Nat × Nat)} {code : Nat} :
    inRanges ranges code = true ↔
      ∃ range ∈ ranges, range.1 ≤ code ∧ code ≤ range.2 := by
  simp [inRanges]

end EntityModel.Text
