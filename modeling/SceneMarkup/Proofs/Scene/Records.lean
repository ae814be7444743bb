import SceneMarkup.Proofs.Json.Sorted
import SceneMarkup.Scene.Record

/-!
# Records as JSON values

A record is written with the fields that are there, in a fixed order, and it is decoded in the order
of the keys.  What is decoded is the record that was written: every field is set by its own member,
and a field without a member stays empty.  A node is written as a record, and this record says all
about the node but for its type and its depth, which are recomputed.

## Main definitions

* `NodeFields.entries`, `NodeRecord.toJson` — a record as a JSON value.
* `SceneNode.toRecord` — a node as a record.

## Main results

* `decodeMembers_optional` — a member sets its own field, and a missing one leaves it empty.
* **`NodeRecord.decode_sorted_toJson`** — a record that was written is decoded.
* `SceneNode.toJson_eq` — a node is written as its record.
-/

namespace SceneMarkup

open Json

/-! ### Geometry and colour -/

theorem decodeOption_of_ok {α : Type} {d : Decoder α} {v : Json} {a : α} (hv : v ≠ .null)
    (h : d v = .ok a) : decodeOption d v = .ok (some a) := by
  cases v with
  | null => exact absurd rfl hv
  | _ =>
    unfold decodeOption
    simp only [h]

namespace Position

theorem sorted_toJson (p : Position) :
    p.toJson.sorted = .object [("x", .ofFloat p.x), ("y", .ofFloat p.y)] := rfl

/-- A corner that was written is decoded. -/
theorem decodeOption_sorted (p : Position) :
    decodeOption Position.decode p.toJson.sorted = .ok (some p) := by
  rw [sorted_toJson]
  exact decodeOption_of_ok (by exact Json.noConfusion) rfl

end Position

namespace Size

theorem sorted_toJson (s : Size) :
    s.toJson.sorted = .object [("height", .ofFloat s.height), ("width", .ofFloat s.width)] := rfl

/-- An extent that was written is decoded. -/
theorem decodeOption_sorted (s : Size) :
    decodeOption Size.decode s.toJson.sorted = .ok (some s) := by
  rw [sorted_toJson]
  exact decodeOption_of_ok (by exact Json.noConfusion) rfl

end Size

namespace Rgba

theorem sorted_toJson (c : Rgba) :
    c.toJson.sorted = .object
      [("a", .ofFloat c.a), ("b", .ofFloat c.b), ("g", .ofFloat c.g), ("r", .ofFloat c.r)] := rfl

/-- A colour that was written is decoded. -/
theorem decodeOption_sorted (c : Rgba) :
    decodeOption Rgba.decode c.toJson.sorted = .ok (some c) := by
  rw [sorted_toJson]
  exact decodeOption_of_ok (by exact Json.noConfusion) rfl

end Rgba

/-! ### Records as values -/

/-- The fields of a record in the order in which they are written, the records inside it behind
them. -/
def NodeFields.entries (f : NodeFields) (children : Json) : List (String × Option Json) :=
  [("id", some (.string f.id)), ("name", some (.string f.name)), ("type", some (.string f.type)),
   ("visible", f.visible.map .bool), ("depth", some (.ofNat f.depth)),
   ("position", f.position.map Position.toJson), ("size", f.size.map Size.toJson),
   ("text", f.text.map .string), ("fontSize", f.fontSize.map .ofFloat),
   ("fontFamily", f.fontFamily.map .string), ("fontWeight", f.fontWeight.map .string),
   ("backgroundColor", f.backgroundColor.map Rgba.toJson),
   ("borderColor", f.borderColor.map Rgba.toJson), ("borderWidth", f.borderWidth.map .ofFloat),
   ("borderRadius", f.borderRadius.map .ofFloat), ("children", some children)]

namespace NodeRecord

mutual

/-- The JSON value of a record. -/
def toJson : NodeRecord → Json
  | .mk f cs => .object (present (f.entries (.array (toJsons cs))))

/-- The JSON values of some records. -/
def toJsons : List NodeRecord → List Json
  | [] => []
  | r :: rs => toJson r :: toJsons rs

end

/-- The fields of a record are sorted by key. -/
theorem sortedEntries_entries (f : NodeFields) (children : Json) :
    sortedEntries [] (f.entries children) =
      [("backgroundColor", (f.backgroundColor.map Rgba.toJson).map sorted),
       ("borderColor", (f.borderColor.map Rgba.toJson).map sorted),
       ("borderRadius", (f.borderRadius.map .ofFloat).map sorted),
       ("borderWidth", (f.borderWidth.map .ofFloat).map sorted),
       ("children", some children.sorted),
       ("depth", some (.ofNat f.depth)),
       ("fontFamily", (f.fontFamily.map .string).map sorted),
       ("fontSize", (f.fontSize.map .ofFloat).map sorted),
       ("fontWeight", (f.fontWeight.map .string).map sorted),
       ("id", some (.string f.id)),
       ("name", some (.string f.name)),
       ("position", (f.position.map Position.toJson).map sorted),
       ("size", (f.size.map Size.toJson).map sorted),
       ("text", (f.text.map .string).map sorted),
       ("type", some (.string f.type)),
       ("visible", (f.visible.map .bool).map sorted)] := by
  rfl

theorem sorted_entries (f : NodeFields) (children : Json) :
    (Json.object (present (f.entries children))).sorted =
      .object (present (sortedEntries [] (f.entries children))) := by
  have hkeys : (f.entries children).map Prod.fst = fieldNames := rfl
  have hnodup : ((f.entries children).map Prod.fst).Nodup := by
    rw [hkeys]
    decide
  rw [sorted]
  have hnil : SortedKeys [] := List.Pairwise.nil
  exact congrArg Json.object
    (sortedMembers_present (f.entries children) hnil (fun k _ => List.not_mem_nil) hnodup)

end NodeRecord

/-! ### Decoding records -/

namespace NodeFields

theorem withField_borderWidth (f : NodeFields) (x : Float) :
    f.withField "borderWidth" (Json.ofFloat x).sorted = .ok { f with borderWidth := some x } := by
  unfold withField
  rfl

theorem withField_borderRadius (f : NodeFields) (x : Float) :
    f.withField "borderRadius" (Json.ofFloat x).sorted = .ok { f with borderRadius := some x } := by
  unfold withField
  rfl

theorem withField_visible (f : NodeFields) (b : Bool) :
    f.withField "visible" (Json.bool b).sorted = .ok { f with visible := some b } := by
  unfold withField
  rfl

theorem withField_text (f : NodeFields) (s : String) :
    f.withField "text" (Json.string s).sorted = .ok { f with text := some s } := by
  unfold withField
  rfl

theorem withField_fontSize (f : NodeFields) (x : Float) :
    f.withField "fontSize" (Json.ofFloat x).sorted = .ok { f with fontSize := some x } := by
  unfold withField
  rfl

theorem withField_fontFamily (f : NodeFields) (s : String) :
    f.withField "fontFamily" (Json.string s).sorted = .ok { f with fontFamily := some s } := by
  unfold withField
  rfl

theorem withField_fontWeight (f : NodeFields) (s : String) :
    f.withField "fontWeight" (Json.string s).sorted = .ok { f with fontWeight := some s } := by
  unfold withField
  rfl

theorem withField_position (f : NodeFields) (p : Position) :
    f.withField "position" p.toJson.sorted = .ok { f with position := some p } := by
  unfold withField
  simp only [p.decodeOption_sorted]
  rfl

theorem withField_size (f : NodeFields) (s : Size) :
    f.withField "size" s.toJson.sorted = .ok { f with size := some s } := by
  unfold withField
  simp only [s.decodeOption_sorted]
  rfl

theorem withField_backgroundColor (f : NodeFields) (c : Rgba) :
    f.withField "backgroundColor" c.toJson.sorted = .ok { f with backgroundColor := some c } := by
  unfold withField
  simp only [c.decodeOption_sorted]
  rfl

theorem withField_borderColor (f : NodeFields) (c : Rgba) :
    f.withField "borderColor" c.toJson.sorted = .ok { f with borderColor := some c } := by
  unfold withField
  simp only [c.decodeOption_sorted]
  rfl

theorem withField_id (f : NodeFields) (s : String) :
    f.withField "id" (.string s) = .ok { f with id := s } := by
  unfold withField
  rfl

theorem withField_name (f : NodeFields) (s : String) :
    f.withField "name" (.string s) = .ok { f with name := s } := by
  unfold withField
  rfl

theorem withField_type (f : NodeFields) (s : String) :
    f.withField "type" (.string s) = .ok { f with type := s } := by
  unfold withField
  rfl

theorem withField_depth (f : NodeFields) (n : Nat) :
    f.withField "depth" (.ofNat n) = .ok { f with depth := n } := by
  unfold withField
  rfl

end NodeFields

namespace NodeRecord

theorem decodeMembers_field {key : String} (hkey : key ≠ "children") {v : Json}
    {f f' : NodeFields} (h : f.withField key v = .ok f') (cs : List NodeRecord)
    (ms : List (String × Json)) :
    decodeMembers (.mk f cs) ((key, v) :: ms) = decodeMembers (.mk f' cs) ms := by
  have hfield : withField (.mk f cs) key v = .ok (.mk f' cs) := by
    show (f.withField key v).map (fun f => mk f cs) = .ok (.mk f' cs)
    rw [h]
    rfl
  rw [decodeMembers, if_neg hkey, hfield]

theorem decodeMembers_children {v : Json} {cs : List NodeRecord} (h : decodeChildren v = .ok cs)
    (f : NodeFields) (cs' : List NodeRecord) (ms : List (String × Json)) :
    decodeMembers (.mk f cs') (("children", v) :: ms) = decodeMembers (.mk f cs) ms := by
  rw [decodeMembers, if_pos rfl, h]
  rfl

/-- **Members of optional fields.**

A member sets its own field, and a missing one leaves it empty. -/
theorem decodeMembers_optional {α : Type} (key : String) (hkey : key ≠ "children")
    (encode : α → Json) (set : NodeFields → Option α → NodeFields)
    (hset : ∀ (f : NodeFields) (a : α), f.withField key (encode a).sorted = .ok (set f (some a)))
    {f : NodeFields} (hnone : set f none = f) (cs : List NodeRecord) (o : Option α)
    (es : List (String × Option Json)) :
    decodeMembers (.mk f cs) (present ((key, (o.map encode).map sorted) :: es)) =
      decodeMembers (.mk (set f o) cs) (present es) := by
  cases o with
  | none => rw [Option.map_none, Option.map_none, present_none, hnone]
  | some a =>
    rw [Option.map_some, Option.map_some, present_some]
    exact decodeMembers_field hkey (hset f a) cs (present es)

/-- The members of a record in the order of their keys set its fields one by one. -/
theorem decodeMembers_sortedEntries (f : NodeFields) {children : Json} {cs : List NodeRecord}
    (hcs : decodeChildren children.sorted = .ok cs) :
    decodeMembers empty (present (sortedEntries [] (f.entries children))) = .ok (.mk f cs) := by
  rw [sortedEntries_entries, empty]
  -- the record is reduced after each step, or it grows with every field that is set
  rw [decodeMembers_optional "backgroundColor" (by decide) Rgba.toJson
    (fun f o => { f with backgroundColor := o }) NodeFields.withField_backgroundColor rfl]
  dsimp only
  rw [decodeMembers_optional "borderColor" (by decide) Rgba.toJson
    (fun f o => { f with borderColor := o }) NodeFields.withField_borderColor rfl]
  dsimp only
  rw [decodeMembers_optional "borderRadius" (by decide) .ofFloat
    (fun f o => { f with borderRadius := o }) NodeFields.withField_borderRadius rfl]
  dsimp only
  rw [decodeMembers_optional "borderWidth" (by decide) .ofFloat
    (fun f o => { f with borderWidth := o }) NodeFields.withField_borderWidth rfl]
  dsimp only
  rw [present_some, decodeMembers_children hcs]
  rw [present_some, decodeMembers_field (by decide) (NodeFields.withField_depth _ _)]
  dsimp only
  rw [decodeMembers_optional "fontFamily" (by decide) .string
    (fun f o => { f with fontFamily := o }) NodeFields.withField_fontFamily rfl]
  dsimp only
  rw [decodeMembers_optional "fontSize" (by decide) .ofFloat
    (fun f o => { f with fontSize := o }) NodeFields.withField_fontSize rfl]
  dsimp only
  rw [decodeMembers_optional "fontWeight" (by decide) .string
    (fun f o => { f with fontWeight := o }) NodeFields.withField_fontWeight rfl]
  dsimp only
  rw [present_some, decodeMembers_field (by decide) (NodeFields.withField_id _ _)]
  dsimp only
  rw [present_some, decodeMembers_field (by decide) (NodeFields.withField_name _ _)]
  dsimp only
  rw [decodeMembers_optional "position" (by decide) Position.toJson
    (fun f o => { f with position := o }) NodeFields.withField_position rfl]
  dsimp only
  rw [decodeMembers_optional "size" (by decide) Size.toJson
    (fun f o => { f with size := o }) NodeFields.withField_size rfl]
  dsimp only
  rw [decodeMembers_optional "text" (by decide) .string
    (fun f o => { f with text := o }) NodeFields.withField_text rfl]
  dsimp only
  rw [present_some, decodeMembers_field (by decide) (NodeFields.withField_type _ _)]
  dsimp only
  rw [decodeMembers_optional "visible" (by decide) .bool
    (fun f o => { f with visible := o }) NodeFields.withField_visible rfl]
  rfl

mutual

/-- **Decoding what was written.**

A record that was written is decoded, the records inside it included. -/
theorem decode_sorted_toJson : ∀ r : NodeRecord, decode r.toJson.sorted = .ok r
  | .mk f cs => by
    have hcs : decodeChildren (Json.array (toJsons cs)).sorted = .ok cs := by
      rw [sorted, decodeChildren]
      exact decodeAll_sortedItems cs
    rw [toJson, sorted_entries, decode]
    exact decodeMembers_sortedEntries f hcs

theorem decodeAll_sortedItems : ∀ rs : List NodeRecord,
    decodeAll (sortedItems (toJsons rs)) = .ok rs
  | [] => rfl
  | r :: rs => by
    rw [toJsons, sortedItems, decodeAll, decode_sorted_toJson r, decodeAll_sortedItems rs]

end

end NodeRecord

/-! ### Nodes as records -/

/-- What a node carries, as the fields of a record. -/
def NodeInfo.toFields (i : NodeInfo) : NodeFields where
  id := i.id
  name := i.name
  type := i.kind.name
  visible := some i.visible
  depth := i.depth
  position := i.position
  size := i.size

/-- The fields of a record with those of a text. -/
def Typography.toFields (t : Typography) (f : NodeFields) : NodeFields :=
  { f with
    text := some t.text
    fontSize := t.fontSize
    fontFamily := t.fontFamily
    fontWeight := t.fontWeight
    backgroundColor := t.color }

/-- The fields of a record with those of the painting of a shape or container. -/
def Paint.toFields (p : Paint) (f : NodeFields) : NodeFields :=
  { f with
    backgroundColor := p.background
    borderColor := p.borderColor
    borderWidth := p.borderWidth
    borderRadius := p.borderRadius }

namespace SceneNode

mutual

/-- A node as a record. -/
def toRecord : SceneNode → NodeRecord
  | .text i t => .mk (t.toFields i.toFields) []
  | .shape i p => .mk (p.toFields i.toFields) []
  | .container i p cs => .mk (p.toFields i.toFields) (toRecords cs)

/-- Some nodes as records. -/
def toRecords : List SceneNode → List NodeRecord
  | [] => []
  | n :: ns => toRecord n :: toRecords ns

end

theorem present_map {α : Type} (key : String) (encode : α → Json) (o : Option α)
    (es : List (String × Option Json)) :
    present ((key, o.map encode) :: es) = optionalMember key encode o ++ present es := by
  cases o with
  | none => rfl
  | some a => rfl

/-- A text is written with the fields of its record that are there. -/
theorem present_text (i : NodeInfo) (t : Typography) (children : Json) :
    present ((t.toFields i.toFields).entries children) =
      i.members ++ t.members ++ [("children", children)] := by
  simp only [NodeFields.entries, Typography.toFields, NodeInfo.toFields, Option.map_some,
    Option.map_none, present_some, present_none, present_map, present_nil, NodeInfo.members,
    Typography.members, List.cons_append, List.append_assoc, List.nil_append]

theorem present_paint (i : NodeInfo) (p : Paint) (children : Json) :
    present ((p.toFields i.toFields).entries children) =
      i.members ++ p.members ++ [("children", children)] := by
  simp only [NodeFields.entries, Paint.toFields, NodeInfo.toFields, Option.map_some,
    Option.map_none, present_some, present_none, present_map, present_nil, NodeInfo.members,
    Paint.members, List.cons_append, List.append_assoc, List.nil_append]

mutual

/-- A node is written as its record. -/
theorem toJson_eq : ∀ n : SceneNode, n.toJson = n.toRecord.toJson
  | .text i t => by
    rw [toJson, toRecord, NodeRecord.toJson, present_text]
    rfl
  | .shape i p => by
    rw [toJson, toRecord, NodeRecord.toJson, present_paint]
    rfl
  | .container i p cs => by
    rw [toJson, toRecord, NodeRecord.toJson, present_paint, toJsons_eq cs]

theorem toJsons_eq : ∀ ns : List SceneNode, toJsons ns = NodeRecord.toJsons (toRecords ns)
  | [] => rfl
  | n :: ns => by
    rw [toJsons, toRecords, NodeRecord.toJsons, toJson_eq n, toJsons_eq ns]

end

end SceneNode
end SceneMarkup
