import SceneMarkup.Text.Basic
import SceneMarkup.Text.Blank

/-!
# Fenced code

A response may hold its code between two fences of three backquotes, with a hint at the language on
the line of the first.

## Main definitions

* `fence` — a fence.
* `behindHint` — the text behind the line of the first fence.
* `fencedCode?` — the code between the first two fences.
* `extractCode` — the code of a response.
-/

namespace SceneMarkup
namespace Prompt

open Text

/-- A fence. -/
def fence : List Char := "```".toList

/-- The text behind the first line, or all of it when it has one line only. -/
def behindHint (s : List Char) : List Char :=
  match divide? ['\n'] s with
  | some (_, r) => r
  | none => s

/-- The code between the first fence, its line skipped, and the next one. -/
def fencedCode? (s : List Char) : Option (List Char) :=
  match divide? fence s with
  | none => none
  | some (_, r) => (divide? fence (behindHint r)).map Prod.fst

/-- The code of a response: what its first two fences hold, or all of it when there are no two;
without the blanks at its ends. -/
def extractCode (response : List Char) : List Char :=
  match fencedCode? (trim response) with
  | some code => trim code
  | none => trim response

end Prompt
end SceneMarkup
