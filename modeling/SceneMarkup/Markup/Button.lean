import SceneMarkup.Markup.Attribute
import SceneMarkup.Rule.Basic

/-!
# Button types

Every `<button>` states its type.

## Main definitions

* `button?` — the reader of an opening button tag.
* `typedButtons` — the rule.
-/

namespace SceneMarkup
namespace Markup

open Text

/-- An opening button tag, read as its attribute text. -/
def button? : Recogniser (List Char) := tag? "<button".toList

/-- Whether a tag has an attribute named `type`. -/
def hasType (attrs : List Char) : Bool := (findAttribute? "type".toList attrs).isSome

/-- A button tag with the type `button` in front of its attributes. -/
def typedButton (attrs : List Char) : List Char :=
  "<button type=\"button\"".toList ++ attrs ++ ['>']

/-- The rule that gives every button a type. -/
def typedButtons : Rule where
  name := "button-type"
  description := "Insert type=\"button\" on buttons without a type attribute"
  revise := replaceAll button? fun text attrs => if hasType attrs then text else typedButton attrs

end Markup
end SceneMarkup
