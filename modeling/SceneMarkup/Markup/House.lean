import SceneMarkup.Markup.Anchor
import SceneMarkup.Markup.Button
import SceneMarkup.Markup.ClassName
import SceneMarkup.Markup.Heading
import SceneMarkup.Markup.Icon
import SceneMarkup.Markup.ItemList

/-!
# The house rules of markup

## Main definitions

* `houseRules` — the rules in the order of their application.
* `normalize` — a markup by the house rules.
-/

namespace SceneMarkup
namespace Markup

/-- The house rules of markup, in the order of their application. -/
def houseRules : Pipeline :=
  [kebabClasses, emptyHref, standardIcons, typedButtons, hiddenIcons, itemLists, singleHeading]

/-- A markup brought to the house rules. -/
def normalize (markup : List Char) : List Char := houseRules.apply markup

end Markup
end SceneMarkup
