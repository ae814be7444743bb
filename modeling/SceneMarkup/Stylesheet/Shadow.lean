import SceneMarkup.Rule.Basic
import SceneMarkup.Stylesheet.Declaration
import SceneMarkup.Stylesheet.Number

/-!
# Shadows

Shadows of four or three lengths and a colour go through the `rem` mixin.

## Main definitions

* `shadowLengths?` — a number of lengths, each followed by a blank.
* `shadowValue?` — the argument of the mixin.
* `shadows` — the rule.
-/

namespace SceneMarkup
namespace Stylesheet

open Text

/-- So many lengths, with an optional unit of pixels each and at least one blank between them; the
text that remains still has the blanks behind the last length in front. -/
def shadowLengths? : Nat → Recogniser (List (List Char))
  | 0, s => some ([], s)
  | n + 1, s =>
    match signed? unsigned? s with
    | none => none
    | some (length, r) =>
      let r := skipPixels r
      if n = 0 then some ([length], r)
      else
        match blanks? r with
        | none => none
        | some r =>
          match shadowLengths? n r with
          | some (ls, rest) => some (length :: ls, rest)
          | none => none

/-- What follows at least one blank, up to the end of the line, which must be the end of the text.
When there are only blanks, the last of them is what follows the others. -/
def shadowColor? (s : List Char) : Option (List Char) :=
  match s with
  | [] => none
  | c :: r =>
    if isBlank c then
      let color :=
        match trimStart r with
        | [] => r.drop (r.length - 1)
        | color => color
      if color.isEmpty || color.contains '\n' then none else some color
    else none

/-- The argument of the mixin for so many lengths and a colour. -/
def shadowOf? (n : Nat) (value : List Char) : Option (List Char) :=
  match shadowLengths? n value with
  | none => none
  | some (ls, r) => (shadowColor? r).map fun color => joinWith [' '] (ls ++ [color])

/-- The argument of the mixin for a shadow of four or else three lengths and a colour. -/
def shadowValue? (value : List Char) : Option (List Char) :=
  match shadowOf? 4 value with
  | some argument => some argument
  | none => shadowOf? 3 value

/-- The argument of the mixin for the value of a shadow property. -/
def shadowArgument? (value : List Char) : Option (List Char) :=
  let v := trim value
  if contains "calc(".toList v || sameAscii v "none".toList then none else shadowValue? v

/-- The shadow properties. -/
def shadowProperties : List String := ["box-shadow", "text-shadow"]

/-- The rule that writes shadows with the mixin. -/
def shadows : Rule where
  name := "shadows"
  description := "Convert box-shadow and text-shadow lengths to the rem mixin"
  revise := convert (shadowProperties.map String.toList) shadowArgument?

end Stylesheet
end SceneMarkup
