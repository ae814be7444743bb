import SceneMarkup.Markup.Tag
import SceneMarkup.Rule.Basic

/-!
# One heading of level one

The first `<h1>` of a markup stays; every later one becomes an `<h2>`, together with the closing tag
that follows it.

## Main definitions

* `HeadingTag`, `headingTag?` — the tags of headings of level one.
* `Demotion` — what is known while going through the tags.
* `singleHeading` — the rule.
-/

namespace SceneMarkup
namespace Markup

open Text

/-- A tag of a heading of level one. -/
inductive HeadingTag where
  /-- An opening tag with its attribute text. -/
  | opening (attrs : List Char)
  /-- A closing tag. -/
  | closing
  deriving Repr, DecidableEq

/-- An opening or closing tag of a heading of level one. -/
def headingTag? : Recogniser HeadingTag := fun s =>
  match tag? "<h1".toList s with
  | some (attrs, rest) => some (.opening attrs, rest)
  | none =>
    match tag? "</h1".toList s with
    | some (_, rest) => some (.closing, rest)
    | none => none

/-- What is known while going through the heading tags. -/
structure Demotion where
  /-- An opening tag has been seen. -/
  seen : Bool
  /-- The last opening tag was demoted and its closing tag is still to come. -/
  pending : Bool
  deriving Repr, DecidableEq

/-- A heading tag after demotion, and what is known behind it. -/
def Demotion.step (d : Demotion) (text : List Char) : HeadingTag → List Char × Demotion
  | .closing => if d.pending then ("</h2>".toList, ⟨d.seen, false⟩) else (text, d)
  | .opening attrs =>
    if d.seen then ("<h2".toList ++ attrs ++ ['>'], ⟨true, true⟩) else (text, ⟨true, false⟩)

/-- Pieces with every heading but the first demoted. -/
def demote (d : Demotion) : List (Piece HeadingTag) → List Char
  | [] => []
  | .plain c :: ps => c :: demote d ps
  | .found t tag :: ps => (d.step t tag).1 ++ demote (d.step t tag).2 ps

/-- The rule that keeps one heading of level one. -/
def singleHeading : Rule where
  name := "single-h1"
  description := "Allow at most one level-1 heading"
  revise := fun s => demote ⟨false, false⟩ (pieces headingTag? s)

end Markup
end SceneMarkup
