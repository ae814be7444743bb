import SceneMarkup.Text.Basic
import SceneMarkup.Text.Blank
import SceneMarkup.Text.Scan

/-!
# Declarations

A declaration is seen where blanks, a property, a colon, a value and a semicolon follow each other.
A converted declaration includes the `rem` mixin.

## Main definitions

* `Declaration`, `declaration?` — a declaration of one of several properties.
* `mixin` — the text of an inclusion of the `rem` mixin.
* `convert` — the revision that converts the declarations whose value can be converted.
-/

namespace SceneMarkup
namespace Stylesheet

open Text

/-- A declaration as read. -/
structure Declaration where
  /-- The blanks in front. -/
  lead : List Char
  /-- The property. -/
  property : List Char
  /-- The value, without the blanks behind the colon. -/
  value : List Char
  deriving Repr, DecidableEq

/-- Whether a character may stand in a value. -/
def isValueChar (c : Char) : Bool := !(c == ';' || c == '{' || c == '}')

/-- What follows blanks and a colon. -/
def afterColon? (s : List Char) : Option (List Char) :=
  match trimStart s with
  | ':' :: r => some r
  | _ => none

/-- A run of characters without the blanks in front; of a run of blanks the last one is kept. -/
def withoutLead (run : List Char) : List Char :=
  match trimStart run with
  | [] => run.drop (run.length - 1)
  | v => v

/-- A value that is not empty, and the semicolon that ends it. -/
def declarationValue? : Recogniser (List Char) := fun s =>
  match s.takeWhile isValueChar, s.dropWhile isValueChar with
  | [], _ => none
  | run, ';' :: rest => some (withoutLead run, rest)
  | _, _ => none

/-- A property, a colon and a value. -/
def propertyValue? (property : List Char) : Recogniser (List Char) := fun s =>
  match after? property s with
  | none => none
  | some r =>
    match afterColon? r with
    | some r => declarationValue? r
    | none => none

/-- A declaration of the first of the properties that lets the text be read. -/
def declaration? (properties : List (List Char)) : Recogniser Declaration := fun s =>
  match s.takeWhile isBlank with
  | [] => none
  | lead =>
    properties.findSome? fun property =>
      match propertyValue? property (s.dropWhile isBlank) with
      | some (value, rest) => some (⟨lead, property, value⟩, rest)
      | none => none

/-- An inclusion of the `rem` mixin with a property and its argument. -/
def mixin (property argument : List Char) : List Char :=
  "@include rem(".toList ++ property ++ ", ".toList ++ argument ++ ");".toList

/-- A text in which every declaration of one of the properties is converted when `f` makes an
argument of its value. -/
def convert (properties : List (List Char)) (f : List Char → Option (List Char))
    (s : List Char) : List Char :=
  replaceAll (declaration? properties)
    (fun text d =>
      match f d.value with
      | some argument => d.lead ++ mixin d.property argument
      | none => text)
    s

end Stylesheet
end SceneMarkup
