import SceneMarkup.Stylesheet.Border
import SceneMarkup.Stylesheet.Color
import SceneMarkup.Stylesheet.Nesting
import SceneMarkup.Stylesheet.Rem
import SceneMarkup.Stylesheet.Shadow

/-!
# The house rules of stylesheets

## Main definitions

* `Options` — what can be configured, with the defaults.
* `houseRules` — the rules in the order of their application.
* `normalize` — a stylesheet by the house rules.
-/

namespace SceneMarkup
namespace Stylesheet

/-- The properties whose sizes go through the mixin by default. -/
def defaultRemProperties : List String :=
  ["margin", "margin-top", "margin-right", "margin-bottom", "margin-left",
   "padding", "padding-top", "padding-right", "padding-bottom", "padding-left",
   "width", "height", "max-width", "min-width", "max-height", "min-height",
   "top", "right", "bottom", "left", "font-size", "line-height",
   "border-width", "border-top-width", "border-right-width", "border-bottom-width",
   "border-left-width", "border-radius", "border-top-left-radius", "border-top-right-radius",
   "border-bottom-left-radius", "border-bottom-right-radius",
   "gap", "row-gap", "column-gap", "outline-width", "outline-offset",
   "text-indent", "letter-spacing", "word-spacing",
   "transform-origin", "perspective", "perspective-origin"]

/-- What can be configured about the house rules of stylesheets. -/
structure Options where
  /-- Lines nested deeper than this get a remark. -/
  nestingLimit : Nat := 4
  /-- The properties whose sizes go through the mixin. -/
  remProperties : List String := defaultRemProperties
  /-- The colour of variables whose name says nothing. -/
  colorFallback : String := "#cccccc"
  deriving Repr, DecidableEq

/-- The house rules of stylesheets, in the order of their application. -/
def houseRules (o : Options) : Pipeline :=
  [remFunctions, remProperties o.remProperties, borders, shadows,
   inlineColors o.colorFallback.toList, markDeepLines o.nestingLimit]

/-- A stylesheet brought to the house rules. -/
def normalize (o : Options) (stylesheet : List Char) : List Char :=
  (houseRules o).apply stylesheet

end Stylesheet
end SceneMarkup
