import SceneMarkup.Rule.Basic
import SceneMarkup.Stylesheet.Color
import SceneMarkup.Stylesheet.Declaration
import SceneMarkup.Stylesheet.Number

/-!
# Borders

The border shorthand, `<width> <style> <color>`, and bare border widths go through the `rem` mixin.

## Main definitions

* `isBorderColor` — the forms of a colour that a shorthand may end with.
* `borderValue?` — the argument of the mixin.
* `borders` — the rule.
-/

namespace SceneMarkup
namespace Stylesheet

open Text

/-- The styles of a border. -/
def borderStyles : List String :=
  ["solid", "dashed", "dotted", "double", "groove", "ridge", "inset", "outset"]

/-- Whether a text is a sharp sign and three to eight hexadecimal digits. -/
def isHexLiteral : List Char → Bool
  | '#' :: s => s.all isHexDigit && 3 ≤ s.length && s.length ≤ 8
  | _ => false

/-- Whether a text is a variable, its letters taken up to folding. -/
def isVariableName : List Char → Bool
  | '$' :: c :: s => isFoldedLetter c && s.all fun c => isFoldedAlphanum c || c == '_' || c == '-'
  | _ => false

/-- Whether a text is a word of letters, up to folding. -/
def isLetterWord (s : List Char) : Bool := !s.isEmpty && s.all isFoldedLetter

/-- Whether a text is a parenthesis with something in it, closed by the last character alone. -/
def isArgumentList (s : List Char) : Bool :=
  match s with
  | '(' :: s =>
    match s.takeWhile (· != ')'), s.dropWhile (· != ')') with
    | _ :: _, [')'] => true
    | _, _ => false
  | _ => false

/-- Whether a text is a colour by its channels. -/
def isChannelColor (s : List Char) : Bool :=
  match afterFolded? "rgba".toList s with
  | some r => isArgumentList r
  | none =>
    match afterFolded? "rgb".toList s with
    | some r => isArgumentList r
    | none => false

/-- Whether a border shorthand may end with a text. -/
def isBorderColor (s : List Char) : Bool :=
  isHexLiteral s || isVariableName s || isLetterWord s || isChannelColor s

/-- A style of a border and at least one blank, read as the style. -/
def borderStyle? : Recogniser (List Char) := fun s =>
  borderStyles.findSome? fun style =>
    match afterFolded? style.toList s with
    | none => none
    | some r => (blanks? r).map fun rest => (s.take style.length, rest)

/-- The argument of the mixin for a shorthand of width, style and colour. -/
def borderShorthand? (value : List Char) : Option (List Char) :=
  match spacedLength? unsigned? value with
  | none => none
  | some (width, r) =>
    match borderStyle? r with
    | none => none
    | some (style, color) =>
      if isBorderColor color then some (joinWith [' '] [width, style, color]) else none

/-- The argument of the mixin for a bare width. -/
def borderWidth? (value : List Char) : Option (List Char) :=
  match unsigned? value with
  | some (width, rest) => if (skipPixels rest).isEmpty then some width else none
  | none => none

/-- The argument of the mixin for a border: a shorthand or a bare width. -/
def borderValue? (value : List Char) : Option (List Char) :=
  match borderShorthand? value with
  | some argument => some argument
  | none => borderWidth? value

/-- The border properties: the sides first, so that none is taken for the whole border. -/
def borderProperties : List String :=
  ["border-top", "border-right", "border-bottom", "border-left", "border"]

/-- The argument of the mixin for the value of a border property. -/
def borderArgument? (value : List Char) : Option (List Char) :=
  let v := trim value
  if contains "calc(".toList v || sameAscii v "none".toList || v == ['0'] then none
  else borderValue? v

/-- The rule that writes borders with the mixin. -/
def borders : Rule where
  name := "border-shorthand"
  description := "Convert border shorthands to the rem mixin"
  revise := convert (borderProperties.map String.toList) borderArgument?

end Stylesheet
end SceneMarkup
