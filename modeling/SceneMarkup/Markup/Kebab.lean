import SceneMarkup.Text.Blank
import SceneMarkup.Text.Lowercase

/-!
# Kebab case

The one spelling of a class name: lower-case words with single hyphens between them.

## Main definitions

* `splitCamel` — a hyphen at every change from a small to a capital letter.
* `hyphenate` — hyphens for underscores and blanks.
* `squeezeHyphens` — one hyphen for every run of hyphens.
* `trimHyphens` — no hyphens at the ends.
* `kebab`, `kebabName` — the spelling of a name.
-/

namespace SceneMarkup
namespace Markup

open Text

/-- Whether a text starts with an ASCII capital. -/
def startsUpper : List Char → Bool
  | [] => false
  | c :: _ => c.isUpper

/-- A text with a hyphen between every small ASCII letter and a capital that follows it. -/
def splitCamel : List Char → List Char
  | [] => []
  | c :: s => if c.isLower && startsUpper s then c :: '-' :: splitCamel s else c :: splitCamel s

@[simp] theorem splitCamel_nil : splitCamel [] = [] := rfl

/-- Whether a character separates words of a name: an underscore or a blank. -/
def isSeparator (c : Char) : Bool := c == '_' || isBlank c

/-- A text with a hyphen for every separator. -/
def hyphenate (s : List Char) : List Char := s.map fun c => if isSeparator c then '-' else c

/-- Whether a text starts with a hyphen. -/
def startsHyphen : List Char → Bool
  | [] => false
  | c :: _ => c == '-'

/-- A text with one hyphen for every run of hyphens. -/
def squeezeHyphens : List Char → List Char
  | [] => []
  | c :: s => if c == '-' && startsHyphen s then squeezeHyphens s else c :: squeezeHyphens s

@[simp] theorem squeezeHyphens_nil : squeezeHyphens [] = [] := rfl

/-- A text without the hyphens at its two ends. -/
def trimHyphens (s : List Char) : List Char :=
  ((s.dropWhile (· == '-')).reverse.dropWhile (· == '-')).reverse

@[simp] theorem trimHyphens_nil : trimHyphens [] = [] := rfl

/-- The kebab-case spelling of a name. -/
def kebab (s : List Char) : List Char :=
  trimHyphens (lower (squeezeHyphens (hyphenate (splitCamel s))))

@[simp] theorem kebab_nil : kebab [] = [] := rfl

/-- The kebab-case spelling of a name, as a string. -/
def kebabName (s : String) : String := String.ofList (kebab s.toList)

end Markup
end SceneMarkup
