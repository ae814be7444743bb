import SceneMarkup.Json.Decode
import SceneMarkup.Prompt.Session

/-!
# Options as JSON values

## Main definitions

* `Stylesheet.Options.decode`, `Stylesheet.Options.toJson` — the options of stylesheets.
* `ResponseOptions.decode`, `ResponseOptions.toJson` — the options of responses.
* `StylesheetOutcome.toJson` — what becomes of a stylesheet response.
* `Stylesheet.Diagnostic.toJson` — a finding of the nesting lint.
-/

namespace SceneMarkup

open Json

namespace Stylesheet

namespace Options

/-- The fields in order. -/
def fieldNames : List String := ["maxNestingDepth", "remProperties", "colorFallback"]

/-- What the decoding of options goes by; those that are missing have their defaults. -/
def jsonShape : Shape :=
  { name := "struct ScssOptions", fields := fieldNames, optional := fieldNames }

/-- Options with one of them from a JSON value. -/
def withField (o : Options) (field : String) (v : Json) : Except Misfit Options :=
  if field = "maxNestingDepth" then (decodeNat v).map fun n => { o with nestingLimit := n }
  else if field = "remProperties" then
    (decodeList decodeString v).map fun ss => { o with remProperties := ss }
  else if field = "colorFallback" then (decodeString v).map fun s => { o with colorFallback := s }
  else .ok o

/-- Options from a JSON value. -/
def decode : Decoder Options := decodeRecord jsonShape withField {}

/-- The JSON value of options. -/
def toJson (o : Options) : Json :=
  .object [("maxNestingDepth", .ofNat o.nestingLimit),
    ("remProperties", .ofStrings o.remProperties), ("colorFallback", .string o.colorFallback)]

end Options

/-- The JSON value of a finding. -/
def Diagnostic.toJson (d : Diagnostic) : Json :=
  .object [("rule", .string d.rule), ("message", .string d.message), ("line", .ofNat d.line),
    ("suggestion", .ofOption .string d.suggestion)]

end Stylesheet

namespace ResponseOptions

/-- The fields in order. -/
def fieldNames : List String := ["scss", "enforceWrapperClass"]

/-- What the decoding of options goes by; those that are missing have their defaults. -/
def jsonShape : Shape :=
  { name := "struct NormalizeOptions", fields := fieldNames, optional := fieldNames }

/-- Options with one of them from a JSON value. -/
def withField (o : ResponseOptions) (field : String) (v : Json) : Except Misfit ResponseOptions :=
  if field = "scss" then (Stylesheet.Options.decode v).map fun x => { o with stylesheet := x }
  else if field = "enforceWrapperClass" then
    (decodeBool v).map fun b => { o with enforceWrapper := b }
  else .ok o

/-- Options from a JSON value. -/
def decode : Decoder ResponseOptions := decodeRecord jsonShape withField {}

/-- The JSON value of options. -/
def toJson (o : ResponseOptions) : Json :=
  .object [("scss", o.stylesheet.toJson), ("enforceWrapperClass", .bool o.enforceWrapper)]

end ResponseOptions

/-- The JSON value of what becomes of a stylesheet response. -/
def StylesheetOutcome.toJson (o : StylesheetOutcome) : Json :=
  .object [("code", .string (String.ofList o.code)), ("classes", .ofStrings o.classes),
    ("styleInfo", o.style.toJson)]

end SceneMarkup
