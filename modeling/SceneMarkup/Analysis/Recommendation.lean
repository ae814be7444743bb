import SceneMarkup.Analysis.Structure
import SceneMarkup.Json.Decode
import SceneMarkup.Scene.Record

/-!
# Recommendations

The structure of a scene in words, and as a JSON value together with these words.

## Main definitions

* `Analysis.recommendation` — the words.
* `Analysis.toJson`, `Analysis.decode` — the JSON value.
-/

namespace SceneMarkup

open Json

namespace Analysis

/-- The words when nothing was found. -/
def emptyRecommendation : String := "No selection to analyze.\n"

/-- A line of text, or nothing when a condition fails. -/
def lineIf (condition : Bool) (line : String) : String := if condition then line ++ "\n" else ""

/-- The tags of the titles. -/
def titleTags (a : Analysis) : List String :=
  (a.texts.filter TextElement.isTitle).map TextElement.tag

/-- The structure of a scene in words. -/
def recommendation (a : Analysis) : String :=
  if a.isEmpty then emptyRecommendation
  else
    "Recommended HTML structure:\n" ++
      lineIf (a.regions.contains .header) "- Use <header> for the top area" ++
      lineIf (a.regions.contains .nav) "- Use <nav> for navigation" ++
      (if a.regions.contains .main then "- Use <main> for the primary content\n"
        else "- Use <section> for content sections\n") ++
      lineIf (!a.titleTags.isEmpty)
        ("- Heading elements: " ++ String.intercalate ", " a.titleTags) ++
      lineIf (!a.lists.isEmpty)
        ("- List structures: " ++ Nat.repr a.lists.length ++ " ul/li group(s)") ++
      lineIf (!a.uniqueComponents.isEmpty)
        ("- Components: " ++
          String.intercalate ", " (a.uniqueComponents.map Component.className)) ++
      lineIf (!a.images.isEmpty)
        ("- Images: " ++ Nat.repr a.images.length ++ " figure/img block(s)") ++
      lineIf (a.regions.contains .footer) "- Use <footer> for the bottom area"

end Analysis

/-! ### JSON values -/

namespace ListStructure

/-- What the decoding of a list goes by. -/
def jsonShape : Shape :=
  { name := "struct ListStructure", fields := ["parentName", "itemCount", "recommendedTag"] }

/-- A list with one of its fields from a JSON value. -/
def withField (l : ListStructure) (field : String) (v : Json) : Except Misfit ListStructure :=
  if field = "parentName" then (decodeString v).map fun s => { l with parentName := s }
  else if field = "itemCount" then (decodeNat v).map fun n => { l with itemCount := n }
  else if field = "recommendedTag" then (decodeString v).map fun s => { l with tag := s }
  else .ok l

/-- A list from a JSON value. -/
def decode : Decoder ListStructure := decodeRecord jsonShape withField ⟨"", 0, ""⟩

/-- The JSON value of a list. -/
def toJson (l : ListStructure) : Json :=
  .object [("parentName", .string l.parentName), ("itemCount", .ofNat l.itemCount),
    ("recommendedTag", .string l.tag)]

end ListStructure

namespace TextElement

/-- What the decoding of a text goes by. -/
def jsonShape : Shape :=
  { name := "struct TextElement", fields := ["text", "isTitle", "fontSize", "recommendedTag"],
    nullable := ["fontSize"] }

/-- A text with one of its fields from a JSON value. -/
def withField (t : TextElement) (field : String) (v : Json) : Except Misfit TextElement :=
  if field = "text" then (decodeString v).map fun s => { t with text := s }
  else if field = "isTitle" then (decodeBool v).map fun b => { t with isTitle := b }
  else if field = "fontSize" then (decodeOption decodeFloat v).map fun x => { t with fontSize := x }
  else if field = "recommendedTag" then (decodeString v).map fun s => { t with tag := s }
  else .ok t

/-- A text from a JSON value. -/
def decode : Decoder TextElement := decodeRecord jsonShape withField ⟨"", false, none, ""⟩

/-- The JSON value of a text. -/
def toJson (t : TextElement) : Json :=
  .object [("text", .string t.text), ("isTitle", .bool t.isTitle),
    ("fontSize", .ofOption .ofFloat t.fontSize), ("recommendedTag", .string t.tag)]

end TextElement

namespace ButtonElement

/-- What the decoding of a button goes by. -/
def jsonShape : Shape :=
  { name := "struct ButtonElement", fields := ["name", "recommendedTag"] }

/-- A button with one of its fields from a JSON value. -/
def withField (b : ButtonElement) (field : String) (v : Json) : Except Misfit ButtonElement :=
  if field = "name" then (decodeString v).map fun s => { b with name := s }
  else if field = "recommendedTag" then (decodeString v).map fun s => { b with tag := s }
  else .ok b

/-- A button from a JSON value. -/
def decode : Decoder ButtonElement := decodeRecord jsonShape withField ⟨"", ""⟩

/-- The JSON value of a button. -/
def toJson (b : ButtonElement) : Json :=
  .object [("name", .string b.name), ("recommendedTag", .string b.tag)]

end ButtonElement

namespace ImageElement

/-- What the decoding of an image goes by. -/
def jsonShape : Shape :=
  { name := "struct ImageElement", fields := ["name", "size", "recommendedTag"],
    nullable := ["size"] }

/-- An image with one of its fields from a JSON value. -/
def withField (i : ImageElement) (field : String) (v : Json) : Except Misfit ImageElement :=
  if field = "name" then (decodeString v).map fun s => { i with name := s }
  else if field = "size" then (decodeOption Size.decode v).map fun s => { i with size := s }
  else if field = "recommendedTag" then (decodeString v).map fun s => { i with tag := s }
  else .ok i

/-- An image from a JSON value. -/
def decode : Decoder ImageElement := decodeRecord jsonShape withField ⟨"", none, ""⟩

/-- The JSON value of an image. -/
def toJson (i : ImageElement) : Json :=
  .object [("name", .string i.name), ("size", .ofOption Size.toJson i.size),
    ("recommendedTag", .string i.tag)]

end ImageElement

namespace Analysis

/-- What the decoding of an analysis goes by; the words are read and then disregarded. -/
def jsonShape : Shape :=
  { name := "struct AnalysisResult",
    fields := ["semanticTags", "componentTypes", "listStructures", "textElements",
      "buttonElements", "imageElements", "recommendedStructure"] }

/-- The regions by their tags. -/
def regionWords : List (String × Region) := Region.all.map fun r => (r.tag, r)

/-- The components by their classes. -/
def componentWords : List (String × Component) := Component.all.map fun c => (c.className, c)

/-- An analysis with one of its fields from a JSON value. -/
def withField (a : Analysis) (field : String) (v : Json) : Except Misfit Analysis :=
  match field with
  | "semanticTags" => (decodeList (decodeWord regionWords) v).map fun x => { a with regions := x }
  | "componentTypes" =>
    (decodeList (decodeWord componentWords) v).map fun x => { a with components := x }
  | "listStructures" => (decodeList ListStructure.decode v).map fun x => { a with lists := x }
  | "textElements" => (decodeList TextElement.decode v).map fun x => { a with texts := x }
  | "buttonElements" => (decodeList ButtonElement.decode v).map fun x => { a with buttons := x }
  | "imageElements" => (decodeList ImageElement.decode v).map fun x => { a with images := x }
  | "recommendedStructure" => (decodeString v).map fun _ => a
  | _ => .ok a

/-- An analysis from a JSON value. -/
def decode : Decoder Analysis := decodeRecord jsonShape withField {}

/-- The JSON value of an analysis, with its words. -/
def toJson (a : Analysis) : Json :=
  .object [("semanticTags", .array (a.regions.map fun r => .string r.tag)),
    ("componentTypes", .array (a.components.map fun c => .string c.className)),
    ("listStructures", .array (a.lists.map ListStructure.toJson)),
    ("textElements", .array (a.texts.map TextElement.toJson)),
    ("buttonElements", .array (a.buttons.map ButtonElement.toJson)),
    ("imageElements", .array (a.images.map ImageElement.toJson)),
    ("recommendedStructure", .string a.recommendation)]

end Analysis
end SceneMarkup
