import SceneMarkup.Decimal.Layout
import SceneMarkup.Json.Decode
import SceneMarkup.Scene.Record
import SceneMarkup.Scene.Walk

/-!
# The style of a scene

The colours, fonts, sizes and positions that a scene uses, in the order of their first use.  Colours
and fonts are listed once each, sizes and positions as often as they occur.

## Main definitions

* `channel`, `rgbHex` — a colour as a hexadecimal literal.
* `Style` — what is collected.
* `Style.ofNodes` — the style of a scene.
-/

namespace SceneMarkup

open Json

/-- A channel as a whole number from 0 to 255: rounded to the nearest, halves upwards, and cut off
at the ends.  What is not finite counts as 0. -/
def channel (x : Float) : Nat :=
  match Decimal.decode x with
  | .finite false m q _ =>
    let unit := Nat.pow 2 (-q).toNat
    min 255 ((2 * m * Nat.pow 2 q.toNat + unit) / (2 * unit))
  | _ => 0

/-- Two hexadecimal digits of a channel. -/
def channelHex (x : Float) : List Char :=
  [Nat.digitChar (channel x / 16), Nat.digitChar (channel x % 16)]

/-- A colour by its channels, as a hexadecimal literal. -/
def rgbHex (r g b : Float) : String :=
  String.ofList ('#' :: channelHex r ++ channelHex g ++ channelHex b)

/-- What a scene uses. -/
structure Style where
  /-- The colours as hexadecimal literals, each once. -/
  colors : List String := []
  /-- The families of fonts, each once. -/
  fonts : List String := []
  /-- The sizes. -/
  sizes : List Size := []
  /-- The positions. -/
  positions : List Position := []
  deriving DecidableEq

namespace Style

/-- A list with one more string at its end, unless it is there already. -/
def addNew (ss : List String) : Option String → List String
  | some s => if ss.contains s then ss else ss ++ [s]
  | none => ss

/-- A list with an optional value at its end. -/
def addSome {α : Type} (as : List α) : Option α → List α
  | some a => as ++ [a]
  | none => as

/-- A colour as a hexadecimal literal. -/
def hexOf (c : Rgba) : String := rgbHex c.r c.g c.b

/-- The colours of a node: that of its letters, or those of its background and border. -/
def colorsOf : SceneNode → List (Option Rgba)
  | .text _ t => [t.color]
  | .shape _ p => [p.background, p.borderColor]
  | .container _ p _ => [p.background, p.borderColor]

/-- The family of the font of a text. -/
def fontOf (n : SceneNode) : Option String := n.typography?.bind Typography.fontFamily

/-- A style with what one node uses. -/
def add (n : SceneNode) (s : Style) : Style where
  colors := (colorsOf n).foldl (fun cs c => addNew cs (c.map hexOf)) s.colors
  fonts := addNew s.fonts (fontOf n)
  sizes := addSome s.sizes n.info.size
  positions := addSome s.positions n.info.position

/-- The visitor that collects a style. -/
def visitor : Visitor Style := .atEvery add

/-- The style of a scene. -/
def ofNodes (ns : List SceneNode) : Style := visitor.walkAll ns {}

/-- What the decoding of a style goes by. -/
def jsonShape : Shape :=
  { name := "struct StyleInfo", fields := ["colors", "fonts", "sizes", "positions"] }

/-- A style with one of its fields from a JSON value. -/
def withField (s : Style) (field : String) (v : Json) : Except Misfit Style :=
  if field = "colors" then (decodeList decodeString v).map fun x => { s with colors := x }
  else if field = "fonts" then (decodeList decodeString v).map fun x => { s with fonts := x }
  else if field = "sizes" then (decodeList Size.decode v).map fun x => { s with sizes := x }
  else if field = "positions" then
    (decodeList Position.decode v).map fun x => { s with positions := x }
  else .ok s

/-- A style from a JSON value. -/
def decode : Decoder Style := decodeRecord jsonShape withField {}

/-- The JSON value of a style. -/
def toJson (s : Style) : Json :=
  .object [("colors", .ofStrings s.colors), ("fonts", .ofStrings s.fonts),
    ("sizes", .array (s.sizes.map Size.toJson)),
    ("positions", .array (s.positions.map Position.toJson))]

end Style
end SceneMarkup
