import SceneMarkup.Analysis.Style
import SceneMarkup.Markup.ClassName
import SceneMarkup.Markup.Wrapper

/-!
# Summaries of markup

What a stylesheet has to cover: the classes of a markup by the kinds of tags that carry them.

## Main definitions

* `firstClassed?`, `semanticTag?`, `classedTag?` — the readers of tags.
* `Summary`, `summarize` — the summary of a markup.
* `Summary.describe` — the summary in words, together with a style.
* `Summary.toJson` — the summary as a JSON value.
-/

namespace SceneMarkup
namespace Markup

open Text

/-! ### Tags -/

/-- The start of an opening tag up to its first class attribute, read as the value of that. -/
def firstClassed? : Recogniser (List Char)
  | '<' :: c :: s =>
    if c.isAlpha then
      match spaced? (assignmentWhere? "class".toList fun v => !v.isEmpty)
          (s.dropWhile isTagChar) with
      | some (_, a, rest) => some (a.value, rest)
      | none => none
    else none
  | _ => none

/-- The names of semantic tags. -/
def semanticNames : List String :=
  ["header", "nav", "main", "section", "article", "aside", "footer", "figure"]

/-- An opening semantic tag, read as its name. -/
def semanticTag? : Recogniser String
  | '<' :: s =>
    semanticNames.findSome? fun name =>
      match after? name.toList s with
      | none => none
      | some r =>
        if startsWord r then none
        else
          match tagBody? r with
          | some (_, rest) => some (name, rest)
          | none => none
  | _ => none

/-- A tag that starts with the word `opening` and has a class attribute whose value satisfies `ok`,
read as that value.  A class attribute behind the first attribute goes before the first. -/
def classedTag? (opening : List Char) (ok : List Char → Bool) : Recogniser (List Char) := fun s =>
  match after? opening s with
  | none => none
  | some [] => none
  | some (c :: r) =>
    if isBlank c then
      match spacedOrHere? (throughTag? (assignmentWhere? "class".toList ok)) r with
      | some (_, a, rest) => some (a.value, rest)
      | none => none
    else none

/-- The class lists of the tags that start with a word. -/
def classLists (opening : List Char) (ok : List Char → Bool) (markup : List Char) :
    List (List String) :=
  (values (classedTag? opening ok) markup).map fun v => (words v).map String.ofList

/-! ### Summaries -/

/-- A kind of tag that people interact with. -/
inductive InteractiveKind where
  | button
  | link
  deriving DecidableEq, Repr

/-- The name of a kind. -/
def InteractiveKind.name : InteractiveKind → String
  | button => "button"
  | link => "link"

/-- A tag that people interact with, by its classes. -/
structure InteractiveElement where
  /-- The kind. -/
  kind : InteractiveKind
  /-- The classes. -/
  classes : List String
  deriving DecidableEq, Repr

/-- What a stylesheet has to cover. -/
structure Summary where
  /-- The first class of the first tag that has one. -/
  wrapper : Option String := none
  /-- All classes, sorted. -/
  classes : List String := []
  /-- The semantic tags, each once, in order. -/
  semanticTags : List String := []
  /-- The classes of components. -/
  componentClasses : List String := []
  /-- The buttons, and behind them the links. -/
  interactive : List InteractiveElement := []
  /-- The class lists of lists. -/
  lists : List (List String) := []
  /-- The class lists of icons. -/
  icons : List (List String) := []
  deriving DecidableEq, Repr

/-- The first word of the first class attribute of a markup. -/
def wrapperOf (markup : List Char) : Option String :=
  match first? firstClassed? markup with
  | some (_, value, _) => (words value).head?.map String.ofList
  | none => none

/-- Whether a value is not empty. -/
def isGiven (value : List Char) : Bool := !value.isEmpty

/-- The summary of a markup; that of a blank one is empty. -/
def summarize (markup : List Char) : Summary :=
  if allBlank markup then {}
  else
    { wrapper := wrapperOf markup
      classes := classNames markup
      semanticTags := (values semanticTag? markup).eraseDups
      componentClasses :=
        (classNames markup).filter fun c => startsWith "component-".toList c.toList
      interactive :=
        (classLists "<button".toList isGiven markup).map (⟨.button, ·⟩) ++
          (classLists "<a".toList isGiven markup).map (⟨.link, ·⟩)
      lists := classLists "<ul".toList isGiven markup
      icons := classLists "<i".toList (contains "ico-".toList) markup }

namespace Summary

/-- A line of text, or nothing when a condition fails. -/
def lineIf (condition : Bool) (line : String) : String := if condition then line ++ "\n" else ""

/-- How many colours are listed before the rest are left out. -/
def listedColors : Nat := 3

/-- The colours of a style, as far as they are listed. -/
def colorLine (colors : List String) : String :=
  "Design colors: " ++ String.intercalate ", " (colors.take listedColors) ++
    if listedColors < colors.length then " and more" else ""

/-- A summary in words, together with a style. -/
def describe (s : Summary) (style : Style) : String :=
  (match s.wrapper with
    | some wrapper => "Wrapper class: ." ++ wrapper ++ "\n"
    | none => "") ++
  lineIf (!s.semanticTags.isEmpty) ("Semantic tags: " ++ String.intercalate ", " s.semanticTags) ++
  lineIf (!s.componentClasses.isEmpty)
    ("Component classes: " ++ String.intercalate ", " s.componentClasses) ++
  lineIf (!s.interactive.isEmpty)
    ("Interactive elements: " ++ Nat.repr s.interactive.length ++ " (buttons, links)") ++
  lineIf (!s.lists.isEmpty) ("List structures: " ++ Nat.repr s.lists.length ++ " ul/li") ++
  lineIf (!s.icons.isEmpty) ("Icon elements: " ++ Nat.repr s.icons.length) ++
  lineIf (!style.colors.isEmpty) (colorLine style.colors) ++
  lineIf (!style.fonts.isEmpty) ("Design fonts: " ++ String.intercalate ", " style.fonts) ++
  "Total classes: " ++ Nat.repr s.classes.length ++ "\n"

/-- A summary as a JSON value. -/
def toJson (s : Summary) : Json :=
  .object [("wrapperClass", .ofOption .string s.wrapper), ("allClasses", .ofStrings s.classes),
    ("semanticTags", .ofStrings s.semanticTags),
    ("componentClasses", .ofStrings s.componentClasses),
    ("interactiveElements", .array (s.interactive.map fun e =>
      .object [("kind", .string e.kind.name), ("classes", .ofStrings e.classes)])),
    ("listStructures", .array (s.lists.map .ofStrings)),
    ("iconElements", .array (s.icons.map .ofStrings))]

end Summary
end Markup
end SceneMarkup
