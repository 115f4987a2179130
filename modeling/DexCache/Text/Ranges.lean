/-!
# Sets of characters as ranges

A set of code points is a list of ranges, ends included.  The tables of this folder
are of that form.
-/

namespace DexCache.Text

/-- Does the code point lie in one of the ranges? -/
def inRanges (ranges : List (Nat × Nat)) (code : Nat) : Bool :=
  ranges.any fun r => r.1 ≤ code && code ≤ r.2

theorem inRanges_iff {ranges : List (Nat × Nat)} {code : Nat} :
    inRanges ranges code = true ↔ ∃ r ∈ ranges, r.1 ≤ code ∧ code ≤ r.2 := by
  simp [inRanges]

end DexCache.Text
