import Criteria.Text.Ranges

/-!
# Blank Characters

The characters with the Unicode property White_Space, and text without them at
its ends.

## Main definitions

* `isBlank`: Membership in White_Space.
* `trim`: Text without blanks at either end.
-/

namespace Criteria

namespace Text

/-- The code points of White_Space as ranges, both ends included. -/
def blankRanges : List (Nat × Nat) :=
  [(0x0009, 0x000D), (0x0020, 0x0020), (0x0085, 0x0085), (0x00A0, 0x00A0), (0x1680, 0x1680),
    (0x2000, 0x200A), (0x2028, 0x2029), (0x202F, 0x202F), (0x205F, 0x205F), (0x3000, 0x3000)]

/-- Whether a character has the property White_Space. -/
def isBlank (c : Char) : Bool :=
  inRanges blankRanges c

/-- Text without blanks at its beginning and at its end. -/
def trim (cs : List Char) : List Char :=
  ((cs.dropWhile isBlank).reverse.dropWhile isBlank).reverse

end Text

end Criteria
