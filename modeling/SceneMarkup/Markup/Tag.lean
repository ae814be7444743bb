import SceneMarkup.Text.Basic
import SceneMarkup.Text.Blank
import SceneMarkup.Text.Scan

/-!
# Tags and quoted assignments

The readers that the markup rules share.  A tag reaches from `<` to the next `>`, whatever stands
between them; a quoted assignment is a name, an equals sign and a value between two quotes, of which
either may be single or double.

## Main definitions

* `tagBody?` — the text up to the next `>`, and the text behind it.
* `tag?` — a tag with a fixed opening, read as its attribute text.
* `Assignment`, `assignment?` — a quoted assignment to a fixed name.
* `spaced?` — the first blank of a tag behind which a form can be read.

## Main results

* `append_of_tagBody?` — the body of a tag and the text behind it are the text.
-/

namespace SceneMarkup
namespace Markup

open Text

/-- The text up to the next `>`, and the text behind that `>`. -/
def tagBody? : Recogniser (List Char)
  | [] => none
  | c :: s =>
    if c = '>' then some ([], s)
    else
      match tagBody? s with
      | some (u, r) => some (c :: u, r)
      | none => none

theorem append_of_tagBody? {s u r : List Char} (h : tagBody? s = some (u, r)) :
    u ++ '>' :: r = s := by
  induction s generalizing u r with
  | nil => cases h
  | cons c s ih =>
    simp only [tagBody?] at h
    split at h
    · rename_i hc
      cases h
      simp [hc]
    · split at h
      · rename_i u' r' he
        cases h
        simp [ih he]
      · cases h

/-- Whether a text starts with a blank. -/
def startsBlank : List Char → Bool
  | [] => false
  | c :: _ => isBlank c

/-- A tag that starts with the word `opening`, read as its attribute text.  What follows the word is
the end of the tag or a blank. -/
def tag? (opening : List Char) : Recogniser (List Char) := fun s =>
  match after? opening s with
  | none => none
  | some r =>
    match tagBody? r with
    | some (attrs, rest) =>
      if attrs.isEmpty || startsBlank attrs then some (attrs, rest) else none
    | none => none

/-- Whether a character is one of the two quotes. -/
def isQuote (c : Char) : Bool := c == '"' || c == '\''

/-- A value between quotes, with the opening quote. -/
structure Assignment where
  /-- The opening quote. -/
  quote : Char
  /-- The text between the quotes. -/
  value : List Char
  deriving Repr, DecidableEq

/-- A value between two quotes, which need not be the same one. -/
def quotedValue? : Recogniser Assignment
  | [] => none
  | q :: s =>
    if isQuote q then
      match s.dropWhile (fun c => !isQuote c) with
      | [] => none
      | _ :: rest => some (⟨q, s.takeWhile (fun c => !isQuote c)⟩, rest)
    else none

/-- An equals sign, with blanks around it or not, and a value between quotes. -/
def equalsQuoted? : Recogniser Assignment := fun s =>
  match trimStart s with
  | '=' :: r => quotedValue? (trimStart r)
  | _ => none

/-- A quoted assignment to the name `name`. -/
def assignment? (name : List Char) : Recogniser Assignment := fun s =>
  match after? name s with
  | some r => equalsQuoted? r
  | none => none

/-- A quoted assignment to the name `name` whose value satisfies `ok`. -/
def assignmentWhere? (name : List Char) (ok : List Char → Bool) : Recogniser Assignment := fun s =>
  match assignment? name s with
  | some (a, rest) => if ok a.value then some (a, rest) else none
  | none => none

/-- The first blank before the end of the tag behind which `p` reads something: the text up to and
with that blank, the value read, and the text that remains. -/
def spaced? {α : Type} (p : Recogniser α) : List Char → Option (List Char × α × List Char)
  | [] => none
  | c :: s =>
    match (if isBlank c then p s else none) with
    | some (a, rest) => some ([c], a, rest)
    | none =>
      if c = '>' then none
      else
        match spaced? p s with
        | some (u, a, rest) => some (c :: u, a, rest)
        | none => none

/-- What `p` reads behind the first blank of a tag that lets it, or else at once: the text skipped,
the value read, and the text that remains. -/
def spacedOrHere? {α : Type} (p : Recogniser α) (s : List Char) :
    Option (List Char × α × List Char) :=
  match spaced? p s with
  | some found => some found
  | none =>
    match p s with
    | some (a, rest) => some ([], a, rest)
    | none => none

/-- A recogniser that reads on to the end of the tag behind what `p` reads. -/
def throughTag? {α : Type} (p : Recogniser α) : Recogniser α := fun s =>
  match p s with
  | none => none
  | some (a, r) =>
    match tagBody? r with
    | some (_, rest) => some (a, rest)
    | none => none

end Markup
end SceneMarkup
