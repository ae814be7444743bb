import SceneMarkup.Analysis.Structure
import SceneMarkup.Analysis.Style
import SceneMarkup.Scene.Document

/-!
# Analysing documents

The structure and the style of the scene in a JSON text.  A text that is no scene has the structure
and the style of an empty one.

## Main definitions

* `Analysis.ofText` — the structure.
* `Style.ofText` — the style.
-/

namespace SceneMarkup

/-- The structure of the scene in a JSON text. -/
def Analysis.ofText (text : List Char) : Analysis :=
  match Selection.parse text with
  | .ok s => analyze s.roots
  | .error _ => {}

/-- The style of the scene in a JSON text. -/
def Style.ofText (text : List Char) : Style :=
  match Selection.parse text with
  | .ok s => Style.ofNodes s.roots
  | .error _ => {}

end SceneMarkup
