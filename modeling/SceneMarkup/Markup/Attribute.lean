import SceneMarkup.Text.Caseless
import SceneMarkup.Markup.Tag

/-!
# Attributes

The attributes in the text between a tag's name and its `>`.  An attribute is a bare name, or a name
with a value that is quoted or not; a quoted value is read whole, so nothing inside it is ever taken
for a name.

## Main definitions

* `Attribute` — an attribute as written.
* `attribute?` — the reader of one attribute.
* `attributes` — the attributes of a text with their places.
* `findAttribute?` — the first attribute of a name, the case of ASCII letters disregarded.
-/

namespace SceneMarkup
namespace Markup

open Text

/-- An attribute as written in a tag. -/
structure Attribute where
  /-- The name. -/
  name : List Char
  /-- The value, if there is one. -/
  value : Option (List Char)
  deriving Repr, DecidableEq

/-- Whether a character may stand in the name of an attribute. -/
def isNameChar (c : Char) : Bool :=
  !(isBlank c || isQuote c || c == '<' || c == '>' || c == '/' || c == '=')

/-- Whether a character may stand in a value that is not quoted. -/
def isBareChar (c : Char) : Bool :=
  !(isBlank c || isQuote c || c == '<' || c == '>' || c == '=' || c == '\x60')

/-- The text up to the next character `q`, and the text behind that character. -/
def upTo? (q : Char) (s : List Char) : Option (List Char × List Char) :=
  match s.dropWhile (fun c => c != q) with
  | [] => none
  | _ :: rest => some (s.takeWhile (fun c => c != q), rest)

/-- A value: quoted by a pair of equal quotes, or a run of characters that need no quotes. -/
def attributeValue? : Recogniser (List Char)
  | [] => none
  | c :: s =>
    if isQuote c then upTo? c s
    else if isBareChar c then some (c :: s.takeWhile isBareChar, s.dropWhile isBareChar)
    else none

/-- An equals sign, with blanks around it or not, and a value. -/
def equalsValue? : Recogniser (List Char) := fun s =>
  match trimStart s with
  | '=' :: r => attributeValue? (trimStart r)
  | _ => none

/-- One attribute: a name, and a value if one follows. -/
def attribute? : Recogniser Attribute := fun s =>
  match s.takeWhile isNameChar with
  | [] => none
  | name =>
    match equalsValue? (s.dropWhile isNameChar) with
    | some (v, rest) => some (⟨name, some v⟩, rest)
    | none => some (⟨name, none⟩, s.dropWhile isNameChar)

/-- The attributes of a text in order, with their places. -/
def attributes (attrs : List Char) : List (Occurrence Attribute) := occurrences attribute? attrs

/-- The first attribute of a name, the case of ASCII letters disregarded. -/
def findAttribute? (name attrs : List Char) : Option (Occurrence Attribute) :=
  (attributes attrs).find? fun o => sameAscii o.value.name name

/-- The words of the first attribute named `class`, if it has a value. -/
def classWords? (attrs : List Char) : Option (List (List Char)) :=
  match findAttribute? "class".toList attrs with
  | some o => o.value.value.map words
  | none => none

end Markup
end SceneMarkup
