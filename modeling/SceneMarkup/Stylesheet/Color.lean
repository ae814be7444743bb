import SceneMarkup.Rule.Basic
import SceneMarkup.Stylesheet.Selector
import SceneMarkup.Text.Basic
import SceneMarkup.Text.Caseless
import SceneMarkup.Text.Lowercase

/-!
# Colour variables

Colours are written as hexadecimal literals.  A variable is replaced by the colour that its name
stands for: by an exact name, else by a hint inside the name, else by a fallback.

## Main definitions

* `variableName?` — the reader of a variable.
* `colorTable`, `colorHints` — the known names and hints.
* `resolveColor` — the colour of a variable.
* `inlineColors` — the rule.
* `hexColor?` — the reader of a hexadecimal literal.
-/

namespace SceneMarkup
namespace Stylesheet

open Text

/-- A dollar sign and an identifier, read as the whole variable. -/
def variableName? : Recogniser (List Char)
  | '$' :: c :: s =>
    if c.isAlpha then some ('$' :: c :: s.takeWhile isIdentChar, s.dropWhile isIdentChar) else none
  | _ => none

/-- The colours of the exact names. -/
def colorTable : List (String × String) :=
  [("primary", "#3b82f6"), ("primary-bg", "#3b82f6"), ("color-primary", "#3b82f6"),
   ("white", "#ffffff"), ("color-white", "#ffffff"), ("color-fff", "#ffffff"),
   ("black", "#000000"), ("color-black", "#000000"), ("color-000", "#000000"),
   ("gray", "#6b7280"), ("grey", "#6b7280"), ("color-gray", "#6b7280"), ("color-grey", "#6b7280"),
   ("light-gray", "#f3f4f6"), ("light-grey", "#f3f4f6"),
   ("dark-gray", "#374151"), ("dark-grey", "#374151"),
   ("red", "#ef4444"), ("color-red", "#ef4444"),
   ("green", "#10b981"), ("color-green", "#10b981"),
   ("blue", "#3b82f6"), ("color-blue", "#3b82f6"),
   ("yellow", "#f59e0b"), ("color-yellow", "#f59e0b"),
   ("orange", "#f97316"), ("color-orange", "#f97316"),
   ("purple", "#8b5cf6"), ("color-purple", "#8b5cf6"),
   ("pink", "#ec4899"), ("color-pink", "#ec4899"),
   ("success", "#10b981"), ("error", "#ef4444"), ("warning", "#f59e0b"), ("info", "#3b82f6"),
   ("danger", "#ef4444")]

/-- Words inside a name and the colour that they hint at; an earlier line goes first. -/
def colorHints : List (List String × String) :=
  [(["white", "fff"], "#ffffff"), (["black", "000"], "#000000"), (["primary", "blue"], "#3b82f6"),
   (["gray", "grey"], "#6b7280"), (["red", "danger"], "#ef4444"), (["green", "success"], "#10b981")]

/-- The colour of an exact name. -/
def tableColor? (name : List Char) : Option String :=
  (colorTable.find? fun entry => entry.1.toList == name).map Prod.snd

/-- The colour hinted at by a word inside a name. -/
def hintedColor? (name : List Char) : Option String :=
  (colorHints.find? fun entry => entry.1.any fun hint => contains hint.toList name).map Prod.snd

/-- The colour of a variable, or `fallback` when its name says nothing. -/
def resolveColor (name fallback : List Char) : List Char :=
  let name := lower (name.dropWhile (· == '$'))
  match tableColor? name with
  | some color => color.toList
  | none =>
    match hintedColor? name with
    | some color => color.toList
    | none => fallback

/-- The rule that replaces variables by colours. -/
def inlineColors (fallback : List Char) : Rule where
  name := "color-variables"
  description := "Inline color variables as hex literals"
  revise := replaceAll variableName? fun _ name => resolveColor name fallback

/-- A sharp sign and three to eight hexadecimal digits that end at a word boundary. -/
def hexColor? : Recogniser Unit
  | '#' :: s =>
    let n := (s.takeWhile isHexDigit).length
    let rest := s.dropWhile isHexDigit
    if 3 ≤ n ∧ n ≤ 8 ∧ !startsWord rest then some ((), rest) else none
  | _ => none

end Stylesheet
end SceneMarkup
