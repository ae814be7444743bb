import SceneMarkup.Markup.Tag
import SceneMarkup.Rule.Basic
import SceneMarkup.Text.Word

/-!
# Item lists

Neighbouring `<div>`s whose class mentions `item` become the items of a list.  Items belong together
when only blanks separate them.  An item reaches to the first `</div>`; one that holds a nested
`<div>` is left as written and parts the items around it.

## Main definitions

* `item?` — the reader of one item.
* `Segment`, `segments` — a text as items with the gaps in front of them.
* `Run`, `runs` — items that belong together.
* `itemLists` — the rule.
-/

namespace SceneMarkup
namespace Markup

open Text

/-- A value that mentions `item`, the rest of the tag, and everything up to the first `</div>`; the
text that remains. -/
def itemFromClass? (s : List Char) : Option (List Char) :=
  match throughTag? (assignmentWhere? "class".toList (contains "item".toList)) s with
  | none => none
  | some (_, r) => (divide? "</div>".toList r).map Prod.snd

/-- The last place before the end of the tag at which `p` succeeds. -/
def lastInTag? {α : Type} (p : List Char → Option α) : List Char → Option α
  | [] => p []
  | c :: s =>
    if c = '>' then p (c :: s)
    else
      -- a later place goes before an earlier one
      match lastInTag? p s with
      | some a => some a
      | none => p (c :: s)

/-- A `<div>` whose class mentions `item`, up to the first `</div>`. -/
def item? : Recogniser Unit := fun s =>
  match after? "<div".toList s with
  | none => none
  | some r =>
    if startsWord r then none
    else (lastInTag? itemFromClass? r).map fun rest => ((), rest)

/-- Whether an item holds no nested `<div>`, so that its `</div>` is its own. -/
def isFlat (item : List Char) : Bool :=
  match tagBody? item with
  | some (_, body) => !contains "<div".toList body
  | none => !contains "<div".toList item

/-- An item and the text between it and the item before. -/
structure Segment where
  /-- The text in front. -/
  gap : List Char
  /-- The text of the item. -/
  item : List Char
  deriving Repr, DecidableEq

/-- Put text in front of the first gap. -/
def prepend (t : List Char) : List Segment × List Char → List Segment × List Char
  | ([], tail) => ([], t ++ tail)
  | (g :: gs, tail) => (⟨t ++ g.gap, g.item⟩ :: gs, tail)

/-- The flat items among pieces, with the gaps in front of them, and the text behind the last. -/
def segmentsOf : List (Piece Unit) → List Segment × List Char
  | [] => ([], [])
  | .plain c :: ps => prepend [c] (segmentsOf ps)
  | .found t _ :: ps =>
    if isFlat t then
      let (gs, tail) := segmentsOf ps
      (⟨[], t⟩ :: gs, tail)
    else prepend t (segmentsOf ps)

/-- A text as flat items with the gaps in front of them, and the text behind the last item. -/
def segments (s : List Char) : List Segment × List Char := segmentsOf (pieces item? s)

/-- Items that belong together. -/
structure Run where
  /-- The text in front of the first item. -/
  gap : List Char
  /-- The first item. -/
  first : List Char
  /-- The other items, with the blanks in front of them. -/
  others : List Segment
  deriving Repr, DecidableEq

/-- The maximal runs of items with nothing but blanks between them. -/
def runs : List Segment → List Run
  | [] => []
  | g :: gs =>
    match runs gs with
    | [] => [⟨g.gap, g.item, []⟩]
    | r :: rs =>
      if allBlank r.gap then ⟨g.gap, g.item, ⟨r.gap, r.first⟩ :: r.others⟩ :: rs
      else ⟨g.gap, g.item, []⟩ :: r :: rs

/-- The text of an item between `<div` and `</div>`. -/
def itemBody (item : List Char) : List Char :=
  let body := (after? "<div".toList item).getD item
  match after? "</div>".toList.reverse body.reverse with
  | some r => r.reverse
  | none => body

/-- An item as a list item. -/
def listItem (item : List Char) : List Char :=
  "<li".toList ++ itemBody item ++ "</li>".toList

/-- The items of a run as a list. -/
def Run.list (r : Run) : List Char :=
  "<ul>".toList ++
    (r.first :: r.others.map Segment.item).flatMap (fun item => "\n    ".toList ++ listItem item) ++
    "\n</ul>".toList

/-- A run as it is written in the end: a list when it has at least two items. -/
def Run.render (r : Run) : List Char :=
  r.gap ++ if r.others.isEmpty then r.first else r.list

/-- Neighbouring items made into lists. -/
def groupItems (s : List Char) : List Char :=
  let (gs, tail) := segments s
  (runs gs).flatMap Run.render ++ tail

/-- The rule that makes lists of neighbouring items. -/
def itemLists : Rule where
  name := "item-lists"
  description := "Wrap consecutive item containers in ul/li"
  revise := groupItems

end Markup
end SceneMarkup
