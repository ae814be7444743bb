import SceneMarkup.Json.Decode
import SceneMarkup.Scene.Node

/-!
# Nodes as records

A node as it is exchanged: one record with all fields that any node has, most of them optional, and
the records inside it.  What a node is follows from its type and from the records inside it; the
depth that a record states is read and then disregarded.

## Main definitions

* `NodeFields`, `NodeRecord` — the records.
* `NodeRecord.decode` — a record from a JSON value.
* `NodeRecord.toNode` — the node of a record, at a depth.
* `SceneNode.toJson` — the JSON value of a node, as a record.
-/

namespace SceneMarkup

open Json

/-! ### Geometry and colour -/

namespace Position

/-- What the decoding of a corner goes by. -/
def jsonShape : Shape := { name := "struct Position", fields := ["x", "y"] }

/-- A corner with one of its fields from a JSON value. -/
def withField (p : Position) (field : String) (v : Json) : Except Misfit Position :=
  if field = "x" then (decodeFloat v).map fun x => { p with x := x }
  else if field = "y" then (decodeFloat v).map fun y => { p with y := y }
  else .ok p

/-- A corner from a JSON value. -/
def decode : Decoder Position := decodeRecord jsonShape withField ⟨0, 0⟩

/-- The JSON value of a corner. -/
def toJson (p : Position) : Json := .object [("x", .ofFloat p.x), ("y", .ofFloat p.y)]

end Position

namespace Size

/-- What the decoding of an extent goes by. -/
def jsonShape : Shape := { name := "struct Size", fields := ["width", "height"] }

/-- An extent with one of its fields from a JSON value. -/
def withField (s : Size) (field : String) (v : Json) : Except Misfit Size :=
  if field = "width" then (decodeFloat v).map fun w => { s with width := w }
  else if field = "height" then (decodeFloat v).map fun h => { s with height := h }
  else .ok s

/-- An extent from a JSON value. -/
def decode : Decoder Size := decodeRecord jsonShape withField ⟨0, 0⟩

/-- The JSON value of an extent. -/
def toJson (s : Size) : Json :=
  .object [("width", .ofFloat s.width), ("height", .ofFloat s.height)]

end Size

namespace Rgba

/-- What the decoding of a colour goes by; a missing opacity is full. -/
def jsonShape : Shape :=
  { name := "struct Rgba", fields := ["r", "g", "b", "a"], optional := ["a"] }

/-- A colour with one of its fields from a JSON value. -/
def withField (c : Rgba) (field : String) (v : Json) : Except Misfit Rgba :=
  if field = "r" then (decodeFloat v).map fun x => { c with r := x }
  else if field = "g" then (decodeFloat v).map fun x => { c with g := x }
  else if field = "b" then (decodeFloat v).map fun x => { c with b := x }
  else if field = "a" then (decodeFloat v).map fun x => { c with a := x }
  else .ok c

/-- A colour from a JSON value. -/
def decode : Decoder Rgba := decodeRecord jsonShape withField { r := 0, g := 0, b := 0 }

/-- The JSON value of a colour. -/
def toJson (c : Rgba) : Json :=
  .object [("r", .ofFloat c.r), ("g", .ofFloat c.g), ("b", .ofFloat c.b), ("a", .ofFloat c.a)]

end Rgba

/-! ### Records -/

/-- The fields of a node's record that hold no records. -/
structure NodeFields where
  /-- The identifier in the design tool. -/
  id : String := ""
  /-- The name. -/
  name : String := ""
  /-- The name of the type. -/
  type : String := ""
  /-- Whether the node is shown. -/
  visible : Option Bool := none
  /-- The depth that the record states. -/
  depth : Nat := 0
  /-- The upper left corner. -/
  position : Option Position := none
  /-- The extent. -/
  size : Option Size := none
  /-- The text of a text node. -/
  text : Option String := none
  /-- The size of the font. -/
  fontSize : Option Float := none
  /-- The family of the font. -/
  fontFamily : Option String := none
  /-- The weight of the font. -/
  fontWeight : Option String := none
  /-- The colour of the background, or of the letters of a text node. -/
  backgroundColor : Option Rgba := none
  /-- The colour of the border. -/
  borderColor : Option Rgba := none
  /-- The width of the border. -/
  borderWidth : Option Float := none
  /-- The radius of the corners. -/
  borderRadius : Option Float := none
  deriving DecidableEq

/-- A node as a record, with the records inside it. -/
inductive NodeRecord where
  /-- A record by its fields and the records inside it. -/
  | mk (fields : NodeFields) (children : List NodeRecord)

/-- One of the fields of a node's record from a JSON value. -/
def NodeFields.withField (r : NodeFields) (field : String) (v : Json) :
    Except Misfit NodeFields :=
  match field with
  | "id" => (decodeString v).map fun s => { r with id := s }
  | "name" => (decodeString v).map fun s => { r with name := s }
  | "type" => (decodeString v).map fun s => { r with type := s }
  | "visible" => (decodeOption decodeBool v).map fun b => { r with visible := b }
  | "depth" => (decodeNat v).map fun n => { r with depth := n }
  | "position" => (decodeOption Position.decode v).map fun p => { r with position := p }
  | "size" => (decodeOption Size.decode v).map fun s => { r with size := s }
  | "text" => (decodeOption decodeString v).map fun s => { r with text := s }
  | "fontSize" => (decodeOption decodeFloat v).map fun x => { r with fontSize := x }
  | "fontFamily" => (decodeOption decodeString v).map fun s => { r with fontFamily := s }
  | "fontWeight" => (decodeOption decodeString v).map fun s => { r with fontWeight := s }
  | "backgroundColor" => (decodeOption Rgba.decode v).map fun c => { r with backgroundColor := c }
  | "borderColor" => (decodeOption Rgba.decode v).map fun c => { r with borderColor := c }
  | "borderWidth" => (decodeOption decodeFloat v).map fun x => { r with borderWidth := x }
  | "borderRadius" => (decodeOption decodeFloat v).map fun x => { r with borderRadius := x }
  | _ => .ok r

namespace NodeRecord

/-- The fields in order. -/
def fieldNames : List String :=
  ["id", "name", "type", "visible", "depth", "position", "size", "text", "fontSize", "fontFamily",
   "fontWeight", "backgroundColor", "borderColor", "borderWidth", "borderRadius", "children"]

/-- What the decoding of a record goes by; no field need be there. -/
def jsonShape : Shape :=
  { name := "struct RawNode", fields := fieldNames, optional := fieldNames }

/-- A record without anything in it. -/
def empty : NodeRecord := .mk {} []

/-- The fields that hold no records. -/
def fields : NodeRecord → NodeFields
  | .mk f _ => f

/-- The records inside a record. -/
def children : NodeRecord → List NodeRecord
  | .mk _ cs => cs

/-- A record with one of the fields that hold no records from a JSON value. -/
def withField (r : NodeRecord) (field : String) (v : Json) : Except Misfit NodeRecord :=
  (r.fields.withField field v).map fun f => .mk f r.children

/-- A record with other records inside it. -/
def withChildren (r : NodeRecord) (cs : List NodeRecord) : NodeRecord := .mk r.fields cs

mutual

/-- A record from a JSON value. -/
def decode : Json → Except Misfit NodeRecord
  | .object ms => decodeMembers empty ms
  | .array vs =>
    match decodeFields empty fieldNames vs with
    | .error e => .error e
    | .ok r =>
      match jsonShape.lengthMisfit? vs.length with
      | some e => .error e
      | none => .ok r
  | v => .error (.wrongKind v jsonShape.name)
termination_by structural v => v

/-- A record with the members of an object put into it. -/
def decodeMembers (r : NodeRecord) : List (String × Json) → Except Misfit NodeRecord
  | [] => .ok r
  | (k, v) :: ms =>
    if k = "children" then
      match decodeChildren v with
      | .error e => .error e
      | .ok cs => decodeMembers (r.withChildren cs) ms
    else
      match r.withField k v with
      | .error e => .error e
      | .ok r => decodeMembers r ms
termination_by structural ms => ms

/-- A record with the items of an array put into its fields, in order. -/
def decodeFields (r : NodeRecord) (names : List String) : List Json → Except Misfit NodeRecord
  | [] => .ok r
  | v :: vs =>
    match names with
    | [] => .ok r
    | k :: ks =>
      if k = "children" then
        match decodeChildren v with
        | .error e => .error e
        | .ok cs => decodeFields (r.withChildren cs) ks vs
      else
        match r.withField k v with
        | .error e => .error e
        | .ok r => decodeFields r ks vs
termination_by structural vs => vs

/-- The records inside a record from a JSON value. -/
def decodeChildren : Json → Except Misfit (List NodeRecord)
  | .null => .ok []
  | .array vs => decodeAll vs
  | v => .error (.wrongKind v "a sequence")
termination_by structural v => v

/-- Records from JSON values. -/
def decodeAll : List Json → Except Misfit (List NodeRecord)
  | [] => .ok []
  | v :: vs =>
    match decode v with
    | .error e => .error e
    | .ok r =>
      match decodeAll vs with
      | .error e => .error e
      | .ok rs => .ok (r :: rs)
termination_by structural vs => vs

end

end NodeRecord

/-! ### From records to nodes -/

namespace NodeFields

/-- What a record says about any node, at a depth. -/
def info (r : NodeFields) (depth : Nat) : NodeInfo where
  id := r.id
  name := r.name
  kind := NodeKind.ofName r.type
  visible := r.visible.getD true
  depth := depth
  position := r.position
  size := r.size

/-- What a record says about a text. -/
def typography (r : NodeFields) : Typography where
  text := r.text.getD ""
  fontSize := r.fontSize
  fontFamily := r.fontFamily
  fontWeight := r.fontWeight
  color := r.backgroundColor

/-- What a record says about the painting of a shape or container. -/
def paint (r : NodeFields) : Paint where
  background := r.backgroundColor
  borderColor := r.borderColor
  borderWidth := r.borderWidth
  borderRadius := r.borderRadius

end NodeFields

namespace NodeRecord

mutual

/-- The node of a record, at a depth.  Records inside a text are dropped; a record of any other type
with records inside it is a container. -/
def toNode (depth : Nat) : NodeRecord → SceneNode
  | .mk r cs =>
    if NodeKind.ofName r.type = .text then .text (r.info depth) r.typography
    else if (NodeKind.ofName r.type).isContainer || !cs.isEmpty then
      .container (r.info depth) r.paint (toNodes (depth + 1) cs)
    else .shape (r.info depth) r.paint

/-- The nodes of some records, at one depth. -/
def toNodes (depth : Nat) : List NodeRecord → List SceneNode
  | [] => []
  | r :: rs => toNode depth r :: toNodes depth rs

end

end NodeRecord

/-! ### From nodes to JSON values -/

/-- A member of an object for an optional value; without the value there is none. -/
def optionalMember {α : Type} (key : String) (f : α → Json) : Option α → List (String × Json)
  | some a => [(key, f a)]
  | none => []

/-- The members of what every node carries. -/
def NodeInfo.members (i : NodeInfo) : List (String × Json) :=
  [("id", .string i.id), ("name", .string i.name), ("type", .string i.kind.name),
   ("visible", .bool i.visible), ("depth", .ofNat i.depth)] ++
    optionalMember "position" Position.toJson i.position ++
    optionalMember "size" Size.toJson i.size

/-- The members of a text. -/
def Typography.members (t : Typography) : List (String × Json) :=
  ("text", .string t.text) ::
    (optionalMember "fontSize" .ofFloat t.fontSize ++
      optionalMember "fontFamily" .string t.fontFamily ++
      optionalMember "fontWeight" .string t.fontWeight ++
      optionalMember "backgroundColor" Rgba.toJson t.color)

/-- The members of the painting of a shape or container. -/
def Paint.members (p : Paint) : List (String × Json) :=
  optionalMember "backgroundColor" Rgba.toJson p.background ++
    optionalMember "borderColor" Rgba.toJson p.borderColor ++
    optionalMember "borderWidth" .ofFloat p.borderWidth ++
    optionalMember "borderRadius" .ofFloat p.borderRadius

namespace SceneNode

mutual

/-- The JSON value of a node, as a record; the records inside it are always listed. -/
def toJson : SceneNode → Json
  | .text i t => .object (i.members ++ t.members ++ [("children", .array [])])
  | .shape i p => .object (i.members ++ p.members ++ [("children", .array [])])
  | .container i p cs => .object (i.members ++ p.members ++ [("children", .array (toJsons cs))])

/-- The JSON values of some nodes. -/
def toJsons : List SceneNode → List Json
  | [] => []
  | n :: ns => toJson n :: toJsons ns

end

end SceneNode
end SceneMarkup
