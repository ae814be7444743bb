import SceneMarkup.Markup.Tag
import SceneMarkup.Rule.Basic

/-!
# Empty anchor targets

Links are wired up by whoever uses the markup, so an anchor's `href` is blanked.

## Main definitions

* `anchor?` — the reader of an anchor up to its `href`.
* `emptyHref` — the rule.
-/

namespace SceneMarkup
namespace Markup

open Text

/-- An anchor up to the value of its `href`. -/
structure Anchor where
  /-- The text between the blanks behind the tag's name and the `href`. -/
  lead : List Char
  /-- The value of the `href`. -/
  target : List Char
  deriving Repr, DecidableEq

/-- The start of an anchor tag up to and with its `href`. -/
def anchor? : Recogniser Anchor := fun s =>
  match after? "<a".toList s with
  | none => none
  | some r =>
    if startsBlank r then
      match spacedOrHere? (assignment? "href".toList) (trimStart r) with
      | some (lead, a, rest) => some (⟨lead, a.value⟩, rest)
      | none => none
    else none

/-- The start of an anchor with an empty target. -/
def Anchor.blanked (a : Anchor) : List Char :=
  "<a ".toList ++ a.lead ++ "href=\"\"".toList

/-- The rule that blanks the target of every anchor. -/
def emptyHref : Rule where
  name := "empty-anchor-href"
  description := "Force anchor href values to the empty string"
  revise := replaceAll anchor? fun text a => if a.target.isEmpty then text else a.blanked

end Markup
end SceneMarkup
