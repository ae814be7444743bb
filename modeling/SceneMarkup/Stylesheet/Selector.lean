import SceneMarkup.Text.Order
import SceneMarkup.Text.Scan
import SceneMarkup.Text.Word

/-!
# Class selectors

The class names that a stylesheet defines or uses: a point and an identifier behind it.

## Main definitions

* `classSelector?` — the reader of one class selector.
* `classNames` — the class names of a stylesheet, sorted.
-/

namespace SceneMarkup
namespace Stylesheet

open Text

/-- Whether a character may stand in an identifier behind its first letter. -/
def isIdentChar (c : Char) : Bool := c.isAlphanum || c == '_' || c == '-'

/-- A point and an identifier that ends at a word boundary, read as the identifier. -/
def classSelector? : Recogniser (List Char)
  | '.' :: c :: s =>
    if c.isAlpha then cutAtBoundary c (s.takeWhile isIdentChar) (s.dropWhile isIdentChar) else none
  | _ => none

/-- The class names of a stylesheet as a sorted list without repetitions. -/
def classNames (stylesheet : List Char) : List String :=
  sortedSet ((values classSelector? stylesheet).map String.ofList)

end Stylesheet
end SceneMarkup
