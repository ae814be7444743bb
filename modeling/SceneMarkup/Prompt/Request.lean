import SceneMarkup.Analysis.Recommendation
import SceneMarkup.Markup.Summary
import SceneMarkup.Prompt.Guideline
import SceneMarkup.Scene.Document

/-!
# Prompts

A prompt is the user's request, guidelines, what is known about the selection, and the selection
itself between two bracketed marks.

## Main definitions

* `opening`, `selectionBlock` — how prompts start and end.
* `markupPrompt`, `classedMarkupPrompt` — prompts for a markup.
* `stylesheetPrompt`, `markupStylePrompt` — prompts for a stylesheet.
-/

namespace SceneMarkup
namespace Prompt

open Text

/-- The user's request and an empty line; nothing when the request is blank. -/
def opening (user : String) : String :=
  match trim user.toList with
  | [] => ""
  | request => String.ofList request ++ "\n\n"

/-- Lines as a text. -/
def block (lines : List String) : String := String.intercalate "\n" lines

/-- The selection between its marks. -/
def selectionBlock (s : Selection) : String :=
  "[SELECTION_JSON]\n" ++ String.ofList s.render ++ "\n[/SELECTION_JSON]"

/-- The line about the components of a scene. -/
def componentLine (a : Analysis) : String :=
  if a.uniqueComponents.isEmpty then "   - use component- classes where they fit"
  else
    "   - detected components: " ++
      String.intercalate ", " (a.uniqueComponents.map Component.className)

/-- The prompt for the markup of a selection. -/
def markupPrompt (s : Selection) (user : String) : String :=
  let a := analyze s.roots
  opening user ++
    block
      (guidelines ++
        ["", "== Structure analysis ==",
          String.ofList (trimEnd a.recommendation.toList), ""] ++
        markupRules ++ ["", "7. Components:", componentLine a, ""] ++ accessibilityRules) ++
    "\n\n" ++ selectionBlock s

/-- The prompt for the markup of a selection with given classes. -/
def classedMarkupPrompt (s : Selection) (user : String) (classes : List String) : String :=
  opening user ++ block classListRules ++ "\n\n[CLASS_LIST]\n" ++
    String.intercalate ", " classes ++ "\n[/CLASS_LIST]\n\n" ++ selectionBlock s

/-- The prompt for the stylesheet of a selection. -/
def stylesheetPrompt (s : Selection) (user : String) : String :=
  opening user ++ block stylesheetRules ++ "\n\n" ++ selectionBlock s

/-- The prompt for the stylesheet of a markup made from a selection. -/
def markupStylePrompt (markup : List Char) (s : Selection) (user : String) : String :=
  opening user ++ block markupStyleRules ++ "\n\n== Markup analysis ==\n" ++
    (Markup.summarize markup).describe (Style.ofNodes s.roots) ++ "\n[HTML_CODE]\n" ++
    String.ofList (trim markup) ++ "\n[/HTML_CODE]\n\n" ++ selectionBlock s

end Prompt
end SceneMarkup
