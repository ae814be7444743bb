import SceneMarkup.Rule.Basic
import SceneMarkup.Stylesheet.Color
import SceneMarkup.Stylesheet.Declaration
import SceneMarkup.Stylesheet.Number

/-!
# Sizes through the rem mixin

Numeric sizes are written with the `rem` mixin: `margin: 20px;` becomes
`@include rem(margin, 20);`.  Values that the mixin cannot express stay as written.

## Main definitions

* `SkipReason`, `skipReason?` — why a value must stay as written.
* `numericValue?` — a value without the units of pixels.
* `remProperties` — the rule for the properties of a list.
* `remFunctions` — the rule for values written with the `rem` function.
-/

namespace SceneMarkup
namespace Stylesheet

open Text

/-- Why a value must stay as written. -/
inductive SkipReason where
  /-- It uses the mixin or the function of its name already. -/
  | mixin
  /-- It is computed. -/
  | calc
  /-- It is a keyword. -/
  | keyword
  /-- It is relative to another size. -/
  | percentage
  /-- It is relative to the viewport. -/
  | viewportUnit
  /-- It is relative to a font. -/
  | relativeUnit
  deriving Repr, DecidableEq

/-- The word for a reason. -/
def SkipReason.name : SkipReason → String
  | .mixin => "mixin"
  | .calc => "calc"
  | .keyword => "keyword"
  | .percentage => "percentage"
  | .viewportUnit => "viewport-unit"
  | .relativeUnit => "relative-unit"

/-- The values that are keywords. -/
def keywords : List String :=
  ["auto", "inherit", "initial", "unset", "none", "normal", "baseline", "center", "flex-start",
   "flex-end", "space-between", "space-around", "space-evenly", "stretch", "start", "end", "left",
   "right", "top", "bottom", "middle", "text-top", "text-bottom", "sub", "super", "0"]

/-- Whether a text is a keyword, the case of its letters disregarded. -/
def isKeyword (s : List Char) : Bool := keywords.any fun k => sameFolded k.toList s

/-- The units that are relative to the viewport. -/
def viewportUnits : List String := ["vw", "vh", "vmin", "vmax"]

/-- The units that are relative to a font. -/
def relativeUnits : List String := ["em", "rem"]

/-- A digit and one of the units behind it. -/
def digitWithUnit? (units : List String) : Recogniser Unit
  | [] => none
  | c :: s =>
    if isDigit c then
      units.findSome? fun u => (afterFolded? u.toList s).map fun rest => ((), rest)
    else none

/-- A value without its variables and hexadecimal colours, so that neither counts as a unit. -/
def bareValue (value : List Char) : List Char :=
  replaceAll hexColor? (fun _ _ => []) (replaceAll variableName? (fun _ _ => []) value)

/-- Why a value must stay as written, if it must. -/
def skipReason? (value : List Char) : Option SkipReason :=
  if contains "rem(".toList value then some .mixin
  else if contains "calc(".toList value then some .calc
  else if isKeyword (trim (bareValue value)) then some .keyword
  else if (bareValue value).contains '%' then some .percentage
  else if occurs (digitWithUnit? viewportUnits) (bareValue value) then some .viewportUnit
  else if occurs (digitWithUnit? relativeUnits) (bareValue value) then some .relativeUnit
  else none

/-- A token without a unit of pixels, if it is a number; any other token as it is. -/
def bareToken (token : List Char) : List Char := (numericToken? token).getD token

/-- The tokens of a value with single blanks between them and without the units of pixels, provided
that one of them is a number. -/
def numericValue? (value : List Char) : Option (List Char) :=
  if (words value).any fun token => (numericToken? token).isSome then
    some (joinWith [' '] ((words value).map bareToken))
  else none

/-- Whether one property goes before another when both are tried at a place: the longer one first,
in bytes, and of two of one length the one of smaller characters. -/
def goesBefore (a b : String) : Bool :=
  b.utf8ByteSize < a.utf8ByteSize || (a.utf8ByteSize == b.utf8ByteSize && a < b)

/-- A list of properties in the order of trying with one more property, unless it is there. -/
def insertProperty (p : String) : List String → List String
  | [] => [p]
  | q :: qs =>
    if p = q then q :: qs else if goesBefore p q then p :: q :: qs else q :: insertProperty p qs

/-- The properties of a configured list in the order in which they are tried: without the blanks
around them, without empty ones and without repetitions. -/
def propertyOrder : List String → List String
  | [] => []
  | p :: ps =>
    match trim p.toList with
    | [] => propertyOrder ps
    | name => insertProperty (String.ofList name) (propertyOrder ps)

/-- The argument of the mixin for the value of a size. -/
def remArgument? (value : List Char) : Option (List Char) :=
  if (skipReason? value).isSome then none else numericValue? (trim value)

/-- The rule that writes the sizes of the listed properties with the mixin.  A list without names
leaves every text as it is.  A program that compiles the list to a pattern does the same when the
list is so long that the pattern is refused for its size; that case is left out here, and a list of
any length is tried. -/
def remProperties (properties : List String) : Rule where
  name := "rem-properties"
  description := "Convert numeric sizing properties to the rem mixin"
  revise := convert ((propertyOrder properties).map String.toList) remArgument?

/-- A declaration whose value is written with the `rem` function; its value is the argument. -/
def remFunction? : Recogniser Declaration := fun s =>
  match s.takeWhile isBlank with
  | [] => none
  | lead =>
    let r := s.dropWhile isBlank
    match r.takeWhile (fun c => c.isAlpha || c == '-') with
    | [] => none
    | property =>
      match afterColon? (r.dropWhile fun c => c.isAlpha || c == '-') with
      | none => none
      | some r =>
        match after? "rem(".toList (trimStart r) with
        | none => none
        | some r =>
          match r.takeWhile (· != ')'), r.dropWhile (· != ')') with
          | [], _ => none
          | value, _ :: r =>
            match trimStart r with
            | ';' :: rest => some (⟨lead, property, value⟩, rest)
            | _ => none
          | _, [] => none

/-- The rule that writes the `rem` function with the mixin. -/
def remFunctions : Rule where
  name := "rem-function-to-mixin"
  description := "Replace rem() function values with the rem mixin"
  revise := replaceAll remFunction? fun _ d =>
    d.lead ++ mixin d.property (trim (erase "px".toList d.value))

end Stylesheet
end SceneMarkup
