import SceneMarkup.Json.Record
import SceneMarkup.Prompt.Session

/-!
# Settings files

What can be configured is given by a JSON file; whatever the file leaves out has its default.

## Main definitions

* `settingsFileName` — the file that is looked for when none is named.
* `ResponseOptions.ofText?` — the settings in a text.
-/

namespace SceneMarkup

open Json

/-- The file that is looked for when none is named. -/
def settingsFileName : String := "handoff.config.json"

namespace ResponseOptions

/-- Settings with the value of one field read into them. -/
def readField (o : ResponseOptions) (field : String) (c : Cursor) : RecordReading ResponseOptions :=
  if field = "maxNestingDepth" then
    (readAs decodeNat c).map fun (n, c) =>
      ({ o with stylesheet := { o.stylesheet with nestingLimit := n } }, c)
  else if field = "remProperties" then
    (readListAs decodeString c).map fun (ss, c) =>
      ({ o with stylesheet := { o.stylesheet with remProperties := ss } }, c)
  else if field = "colorFallback" then
    (readAs decodeString c).map fun (s, c) =>
      ({ o with stylesheet := { o.stylesheet with colorFallback := s } }, c)
  else
    (readAs decodeBool c).map fun (b, c) => ({ o with enforceWrapper := b }, c)

/-- How settings are read. -/
def settingsFormat : RecordFormat ResponseOptions where
  name := "struct Config"
  fields := ["maxNestingDepth", "remProperties", "colorFallback", "enforceWrapperClass"]
  readField := readField

/-- The settings in a text. -/
def ofText? (text : List Char) : Except RecordFault ResponseOptions :=
  readRecord settingsFormat {} text

end ResponseOptions
end SceneMarkup
