import SceneMarkup.Markup.Kebab
import SceneMarkup.Markup.Tag
import SceneMarkup.Rule.Basic
import SceneMarkup.Text.Order

/-!
# Class names of markup

The class names that a markup uses, and the rule that spells them in kebab case.  A class attribute
is seen wherever a blank, the word `class` and a quoted, non-empty value follow each other.

## Main definitions

* `classAttribute?` — the reader of one class attribute.
* `classNames` — the class names of a markup, sorted.
* `kebabClasses` — the rule that spells every class name in kebab case.
-/

namespace SceneMarkup
namespace Markup

open Text

/-- A class attribute: the blank in front of it, and its value. -/
structure ClassAttribute where
  /-- The blank in front. -/
  lead : Char
  /-- The value between the quotes, never empty. -/
  value : List Char
  deriving Repr, DecidableEq

/-- A blank and a quoted assignment of a value that is not empty to `class`. -/
def classAttribute? : Recogniser ClassAttribute
  | [] => none
  | c :: s =>
    if isBlank c then
      match assignmentWhere? "class".toList (fun v => !v.isEmpty) s with
      | some (a, rest) => some (⟨c, a.value⟩, rest)
      | none => none
    else none

/-- The class names of a markup as a sorted list without repetitions. -/
def classNames (markup : List Char) : List String :=
  sortedSet ((values classAttribute? markup).flatMap fun a => (words a.value).map String.ofList)

/-- The words of a class value in kebab case, without those of which nothing is left. -/
def kebabWords (value : List Char) : List (List Char) :=
  ((words value).map kebab).filter fun w => !w.isEmpty

/-- A class attribute with its value in kebab case, in double quotes. -/
def kebabAttribute (a : ClassAttribute) : List Char :=
  a.lead :: "class=\"".toList ++ joinWith [' '] (kebabWords a.value) ++ ['"']

/-- The rule that spells every class name in kebab case. -/
def kebabClasses : Rule where
  name := "kebab-case-classes"
  description := "Convert class attribute tokens to kebab-case"
  revise := replaceAll classAttribute? fun _ a => kebabAttribute a

end Markup
end SceneMarkup
