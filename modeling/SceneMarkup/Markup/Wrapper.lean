import SceneMarkup.Markup.Tag
import SceneMarkup.Text.Word

/-!
# The wrapper class

The first tag of a markup carries the class that its stylesheet nests everything under.

## Main definitions

* `openingTag?` — the reader of any opening tag.
* `quotedClass?` — the reader of a quoted class attribute inside a tag.
* `withClass` — a tag with a class.
* `ensureWrapper` — a markup whose first tag has a class.
-/

namespace SceneMarkup
namespace Markup

open Text

/-- An opening tag. -/
structure OpeningTag where
  /-- The name of the tag. -/
  name : List Char
  /-- What stands between the name and the `>`. -/
  attrs : List Char
  deriving Repr, DecidableEq

/-- Whether a character may stand in the name of a tag behind its first letter. -/
def isTagChar (c : Char) : Bool := c.isAlphanum || c == '-'

/-- Any opening tag.  Its name ends at a word boundary. -/
def openingTag? : Recogniser OpeningTag
  | '<' :: c :: s =>
    if c.isAlpha then
      match cutAtBoundary c (s.takeWhile isTagChar) (s.dropWhile isTagChar) with
      | none => none
      | some (name, r) =>
        match tagBody? r with
        | some (attrs, rest) => some (⟨name, attrs⟩, rest)
        | none => none
    else none
  | _ => none

/-- The text of an opening tag. -/
def OpeningTag.text (t : OpeningTag) : List Char := '<' :: t.name ++ t.attrs ++ ['>']

/-- A quoted class attribute of a tag. -/
structure QuotedClass where
  /-- The text in front, with the blank before the attribute. -/
  before : List Char
  /-- The opening quote and the value. -/
  assignment : Assignment
  /-- The text behind. -/
  after : List Char
  deriving Repr, DecidableEq

/-- The first quoted class attribute in a text. -/
def quotedClass? : List Char → Option QuotedClass
  | [] => none
  | c :: s =>
    match (if isBlank c then assignment? "class".toList s else none) with
    | some (a, rest) => some ⟨[c], a, rest⟩
    | none =>
      match quotedClass? s with
      | some q => some { q with before := c :: q.before }
      | none => none

/-- A blank, the word `class` and an equals sign. -/
def classEquals? : Recogniser Unit
  | [] => none
  | c :: s =>
    if isBlank c then
      match after? "class".toList s with
      | none => none
      | some r =>
        match trimStart r with
        | '=' :: rest => some ((), rest)
        | _ => none
    else none

/-- A class value with one more class at its end. -/
def appendClass (value name : List Char) : List Char :=
  match trim value with
  | [] => name
  | classes => classes ++ ' ' :: name

/-- A quoted class attribute with one more class, and the text around it. -/
def QuotedClass.append (q : QuotedClass) (name : List Char) : List Char :=
  q.before ++ "class=".toList ++ q.assignment.quote :: appendClass q.assignment.value name ++
    q.assignment.quote :: q.after

/-- The text of a tag with a class.  A tag whose class is not quoted is left as it is. -/
def withClass (t : OpeningTag) (name : List Char) : List Char :=
  match quotedClass? t.text with
  | some q =>
    if (words q.assignment.value).contains name then t.text else q.append name
  | none =>
    -- a class without quotes cannot be added to, and a second attribute would be disregarded
    if occurs classEquals? t.text then t.text
    else '<' :: t.name ++ " class=\"".toList ++ name ++ '"' :: t.attrs ++ ['>']

/-- A class without the points in front of it and the blanks around it. -/
def bareClass (wrapper : List Char) : List Char := (trim wrapper).dropWhile (· == '.')

/-- A markup whose first tag has the class of a wrapper. -/
def ensureWrapper (markup wrapper : List Char) : List Char :=
  match bareClass wrapper with
  | [] => markup
  | name =>
    match first? openingTag? markup with
    | some (before, tag, after) => before ++ withClass tag name ++ after
    | none => markup

/-- The class of a list that becomes the wrapper: the first one. -/
def pickWrapper (classes : List String) : Option String := classes.head?

end Markup
end SceneMarkup
