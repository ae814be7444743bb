import SceneMarkup.Rule.Basic
import SceneMarkup.Text.Basic

/-!
# Nesting depth

Braces are counted line by line, wherever they stand; the depth of a line is the number of braces
opened less the number closed up to its end.  Lines deeper than a limit get a remark, and are what
the nesting lint reports.

## Main definitions

* `lineDepths` — the depth of every line.
* `overLimit` — the lines over a limit.
* `markDeepLines` — the rule that remarks on them.
* `Diagnostic`, `lintNesting` — the report on them.
-/

namespace SceneMarkup
namespace Stylesheet

open Text

/-- How much deeper the end of a line is nested than its start. -/
def netBraces (line : List Char) : Int := (line.count '{' : Int) - line.count '}'

/-- The depth of every line, from the depth in front of the first. -/
def depthsFrom (depth : Int) : List (List Char) → List Int
  | [] => []
  | l :: ls => (depth + netBraces l) :: depthsFrom (depth + netBraces l) ls

/-- The depth of every line of a text. -/
def lineDepths (s : List Char) : List Int := depthsFrom 0 (lines s)

/-- The greatest limit that a depth is compared with; every greater one counts as this one. -/
def greatestLimit : Nat := Nat.pow 2 63 - 1

/-- Whether a depth is over a limit. -/
def isOver (limit : Nat) (depth : Int) : Bool := (min limit greatestLimit : Nat) < depth

/-- The depths over a limit with their places, counted from `i`. -/
def overLimitFrom (limit i : Nat) : List Int → List (Nat × Int)
  | [] => []
  | d :: ds =>
    if isOver limit d then (i, d) :: overLimitFrom limit (i + 1) ds
    else overLimitFrom limit (i + 1) ds

/-- The lines over a limit, counted from zero, with their depths. -/
def overLimit (limit : Nat) (s : List Char) : List (Nat × Int) :=
  overLimitFrom limit 0 (lineDepths s)

/-- What every remark on a deep line starts with. -/
def remarkStart : List Char := "/* WARNING - nesting deeper than".toList

/-- The remark on a line over a limit. -/
def remark (limit : Nat) : List Char :=
  ' ' :: remarkStart ++ ' ' :: Nat.toDigits 10 limit ++ " levels */".toList

/-- A line with the remark at its end, before a carriage return. -/
def remarked (limit : Nat) (line : List Char) : List Char :=
  match line.reverse with
  | '\r' :: body => body.reverse ++ remark limit ++ ['\r']
  | _ => line ++ remark limit

/-- A line by its depth: with a remark if it is over the limit and has none yet. -/
def markLine (limit : Nat) (depth : Int) (line : List Char) : List Char :=
  if isOver limit depth && !contains remarkStart line then remarked limit line else line

/-- Lines, each by its depth. -/
def markLines (limit : Nat) : List Int → List (List Char) → List (List Char)
  | d :: ds, l :: ls => markLine limit d l :: markLines limit ds ls
  | _, ls => ls

/-- A text with a remark on every line over the limit. -/
def markDeep (limit : Nat) (s : List Char) : List Char :=
  joinLines (markLines limit (lineDepths s) (lines s))

/-- The rule that remarks on lines over a limit. -/
def markDeepLines (limit : Nat) : Rule where
  name := "max-nesting-depth"
  description := "Flag lines nested deeper than the configured limit"
  revise := markDeep limit

/-- A finding about a line of a stylesheet. -/
structure Diagnostic where
  /-- The name of the rule that reports it. -/
  rule : String
  /-- What was found. -/
  message : String
  /-- The line, counted from one. -/
  line : Nat
  /-- What to do about it. -/
  suggestion : Option String
  deriving Repr, DecidableEq

/-- A finding as one line of text. -/
def Diagnostic.display (d : Diagnostic) : String :=
  "warning[" ++ d.rule ++ "] line " ++ Nat.repr d.line ++ ": " ++ d.message

/-- The finding about a line that is nested too deeply. -/
def deepLine (limit : Nat) (place : Nat × Int) : Diagnostic where
  rule := "max-nesting-depth"
  message := "Nesting depth " ++ Int.repr place.2 ++ " exceeds the limit of " ++ Nat.repr limit
  line := place.1 + 1
  suggestion := some "Flatten the selector or extract a separate block"

/-- The findings about the lines over a limit. -/
def lintNesting (limit : Nat) (s : List Char) : List Diagnostic :=
  (overLimit limit s).map (deepLine limit)

end Stylesheet
end SceneMarkup
