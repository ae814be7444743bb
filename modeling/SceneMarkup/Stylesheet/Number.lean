import SceneMarkup.Text.Basic
import SceneMarkup.Text.Blank
import SceneMarkup.Text.Caseless
import SceneMarkup.Text.Digit
import SceneMarkup.Text.Scan

/-!
# Numbers and lengths

Numbers as they stand in declarations, and lengths in pixels.

## Main definitions

* `unsigned?` — digits, with a fraction or not.
* `signed?` — the same with a sign or not.
* `skipPixels` — what follows a number, an optional `px` skipped.
* `numericToken?` — a whole token that is a number, without its `px`.
-/

namespace SceneMarkup
namespace Stylesheet

open Text

/-- A run of digits. -/
def digits? : Recogniser (List Char) := fun s =>
  match s.takeWhile isDigit with
  | [] => none
  | ds => some (ds, s.dropWhile isDigit)

/-- A point and a run of digits. -/
def fraction? : Recogniser (List Char)
  | '.' :: s =>
    match digits? s with
    | some (ds, rest) => some ('.' :: ds, rest)
    | none => none
  | _ => none

/-- A run of digits, with a fraction if one follows. -/
def unsigned? : Recogniser (List Char) := fun s =>
  match digits? s with
  | none => none
  | some (ds, r) =>
    match fraction? r with
    | some (f, rest) => some (ds ++ f, rest)
    | none => some (ds, r)

/-- What `p` reads, with a minus sign in front or not. -/
def signed? (p : Recogniser (List Char)) : Recogniser (List Char)
  | [] => p []
  | c :: s =>
    if c = '-' then
      match p s with
      | some (n, rest) => some ('-' :: n, rest)
      | none => none
    else p (c :: s)

/-- A text without the unit of pixels at its start. -/
def skipPixels (s : List Char) : List Char := (afterFolded? "px".toList s).getD s

/-- A number with an optional sign; the digits in front of its point may be missing. -/
def number? : Recogniser (List Char) :=
  signed? fun s =>
    match unsigned? s with
    | some found => some found
    | none => fraction? s

/-- The number that a token consists of, without a unit of pixels behind it. -/
def numericToken? (token : List Char) : Option (List Char) :=
  match number? token with
  | some (n, rest) => if (skipPixels rest).isEmpty then some n else none
  | none => none

/-- At least one blank; the text behind the blanks. -/
def blanks? (s : List Char) : Option (List Char) :=
  match s with
  | [] => none
  | c :: _ => if isBlank c then some (trimStart s) else none

/-- A number, an optional unit of pixels and at least one blank, read as the number. -/
def spacedLength? (p : Recogniser (List Char)) : Recogniser (List Char) := fun s =>
  match p s with
  | none => none
  | some (n, r) =>
    match blanks? (skipPixels r) with
    | some rest => some (n, rest)
    | none => none

end Stylesheet
end SceneMarkup
