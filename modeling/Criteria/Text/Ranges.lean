/-!
# Character Ranges

Classes of characters, given by ranges of code points.

## Main definitions

* `inRanges`: Membership in a class.

## Theorems

* `inRanges_iff`: The members of a class lie between the ends of some range.
-/

namespace Criteria

namespace Text

/-- Whether the code point of a character lies in one of the ranges, both ends
    included. -/
def inRanges (ranges : List (Nat × Nat)) (c : Char) : Bool :=
  ranges.any fun (first, last) => first ≤ c.toNat && c.toNat ≤ last

theorem inRanges_iff {ranges : List (Nat × Nat)} {c : Char} :
    inRanges ranges c = true ↔ ∃ r ∈ ranges, r.1 ≤ c.toNat ∧ c.toNat ≤ r.2 := by
  simp only [inRanges, List.any_eq_true, Bool.and_eq_true, decide_eq_true_eq]

end Text

end Criteria
