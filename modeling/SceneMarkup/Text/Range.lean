/-!
# Character properties given by ranges

A property of characters is a sorted list of closed ranges of code points.  All the lists of this
library, and the table of lower-case forms, are those of version 16.0 of the Unicode standard.

## Main definitions

* `inRanges` — membership of a code point in such a list.
-/

namespace SceneMarkup
namespace Text

/-- A closed range of code points, first and last. -/
abbrev CodeRange := Nat × Nat

/-- Whether the code point `n` lies in one of the ranges. -/
def inRanges (n : Nat) : List CodeRange → Bool
  | [] => false
  | (first, last) :: rest => (decide (first ≤ n) && decide (n ≤ last)) || inRanges n rest

end Text
end SceneMarkup
