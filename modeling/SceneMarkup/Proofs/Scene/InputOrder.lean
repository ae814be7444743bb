import Mathlib.Data.List.Forall2
import SceneMarkup.Proofs.Json.Keys
import SceneMarkup.Proofs.Scene.Canonical
import SceneMarkup.Proofs.Scene.Finite
import SceneMarkup.Scene.Document

/-!
# The nodes of a selection are the nodes of its document

A document gives its nodes as JSON values, in objects or in arrays with the fields in order, and the
nodes inside a node as a list, as `null`, or not at all.  The selection that is read from it has the
same nodes in the same order; only what is inside of texts is dropped.  What becomes of a node
follows from its type and from whether there are nodes inside it.

## Main definitions

* `InputNode.members`, `InputNode.string`, `InputNode.isShown`, `InputNode.children` — what a JSON
  value says as a node, with the defaults for what it does not say.
* `InputNode.preorder` — the nodes of some JSON values, each before the nodes inside it.
* `InputNode.roots` — the trees of a document.
* `NodeSummary` — identifier, name, type and visibility.
* `SceneNode.Renders` — what becomes of a node.

## Main results

* `NodeRecord.decodeMembers_field_eq` — what a record says in a field is what the member with that
  key says.
* `renders_preorder` — the trees of some JSON values, node by node.
* `nodes_of_parse` — **the nodes of a selection are the nodes of its document, in order.**
-/

namespace SceneMarkup

open Json

/-! ### Nodes of a document -/

namespace InputNode

/-- What a JSON value says as a node: the members of an object, or the items of an array as the
fields in order. -/
def members : Json → List (String × Json)
  | .object ms => ms
  | .array vs => NodeRecord.fieldNames.zip vs
  | _ => []

/-- The value of a field. -/
def field? (key : String) (v : Json) : Option Json := lookup? key (members v)

/-- The text of a field, empty by default. -/
def string (key : String) (v : Json) : String := ((field? key v).bind string?).getD ""

/-- The truth value that a value is. -/
def truth? : Json → Option Bool
  | .bool b => some b
  | _ => none

/-- Whether a node is shown, as it is by default. -/
def isShown (v : Json) : Bool := ((field? "visible" v).bind truth?).getD true

/-- The nodes inside a node; none by default, and none for `null`. -/
def children (v : Json) : List Json :=
  match field? "children" v with
  | some (.array vs) => vs
  | _ => []

theorem sizeOf_lookup?_zip {key : String} {ks : List String} {vs : List Json} {w : Json}
    (h : lookup? key (ks.zip vs) = some w) : sizeOf w < sizeOf vs :=
  List.sizeOf_lt_of_mem (List.of_mem_zip (mem_of_lookup?_eq_some h)).2

/-- The nodes inside a node are smaller than the node. -/
theorem sizeOf_children_le (v : Json) : sizeOf (children v) ≤ sizeOf v := by
  unfold children
  split
  · next vs h =>
    have harray : sizeOf vs ≤ sizeOf (Json.array vs) := by
      simp only [Json.array.sizeOf_spec]
      omega
    cases v with
    | object ms =>
      have hms : sizeOf (Json.array vs) < sizeOf ms := sizeOf_lookup? h
      simp only [Json.object.sizeOf_spec]
      omega
    | array ws =>
      have hws : sizeOf (Json.array vs) < sizeOf ws := sizeOf_lookup?_zip h
      simp only [Json.array.sizeOf_spec]
      omega
    | _ => cases h
  · cases v <;> simp

/-- Whether a node is a text. -/
def isText (v : Json) : Bool := string "type" v == "TEXT"

/-- The nodes of some trees, each before the nodes inside it; what is inside of texts is left
out. -/
def preorder : List Json → List Json
  | [] => []
  | v :: vs => v :: (if isText v then [] else preorder (children v)) ++ preorder vs
termination_by vs => sizeOf vs
decreasing_by
  · have := sizeOf_children_le v
    simp only [List.cons.sizeOf_spec]
    omega
  · simp only [List.cons.sizeOf_spec]
    omega

/-- The trees of a document: those of its selection, its items, or the document itself. -/
def roots : Json → List Json
  | .array vs => vs
  | .object ms =>
    match lookup? "selection" ms with
    | some (.array vs) => vs
    | some _ => []
    | none => [.object ms]
  | _ => []

end InputNode

/-- What identifies a node. -/
structure NodeSummary where
  /-- The identifier in the design tool. -/
  id : String
  /-- The name. -/
  name : String
  /-- The name of the type. -/
  type : String
  /-- Whether the node is shown. -/
  visible : Bool
  deriving DecidableEq, Repr

/-- What identifies a node of a scene. -/
def SceneNode.summary (n : SceneNode) : NodeSummary :=
  ⟨n.info.id, n.info.name, n.info.kind.name, n.info.visible⟩

/-- What identifies a node of a document, with the defaults. -/
def InputNode.summary (v : Json) : NodeSummary :=
  ⟨string "id" v, string "name" v, string "type" v, isShown v⟩

/-- What becomes of a node of a document.  It is a text if that is its type.  Otherwise it is a
container if its type is one of containers or there are nodes inside it, and a shape if neither is
so.  Only the nodes inside a text are dropped. -/
structure SceneNode.Renders (v : Json) (n : SceneNode) : Prop where
  /-- It is the same node. -/
  summary : n.summary = InputNode.summary v
  /-- The texts are the nodes of that type. -/
  text_iff : (∃ i t, n = .text i t) ↔ n.info.kind = .text
  /-- The shapes have nothing inside them and could not have. -/
  shape_iff : (∃ i p, n = .shape i p) ↔
    n.info.kind ≠ .text ∧ n.info.kind.isContainer = false ∧ InputNode.children v = []
  /-- The containers have something inside them or could have. -/
  container_iff : (∃ i p cs, n = .container i p cs) ↔
    n.info.kind ≠ .text ∧ (n.info.kind.isContainer = true ∨ InputNode.children v ≠ [])
  /-- There are as many nodes inside it as the document has. -/
  length_children : n.info.kind ≠ .text →
    n.children.length = (InputNode.children v).length

/-! ### Types -/

theorem NodeKind.name_ofName (name : String) : (NodeKind.ofName name).name = name := by
  unfold NodeKind.ofName
  split
  · next entry h =>
    have hknown : ∀ e ∈ NodeKind.known, e.2.name = e.1 := by decide
    rw [hknown entry (List.mem_of_find?_eq_some h)]
    simpa using List.find?_some h
  · rfl

theorem NodeKind.ofName_eq_text_iff (name : String) :
    NodeKind.ofName name = .text ↔ name = "TEXT" := by
  constructor
  · intro h
    rw [← NodeKind.name_ofName name, h]
    rfl
  · rintro rfl
    decide

/-! ### Records -/

/-- A field other than these four leaves them. -/
theorem NodeFields.eq_of_withField {f f' : NodeFields} {k : String} {v : Json}
    (h : f.withField k v = .ok f') :
    (k ≠ "id" → f'.id = f.id) ∧ (k ≠ "name" → f'.name = f.name) ∧
      (k ≠ "type" → f'.type = f.type) ∧ (k ≠ "visible" → f'.visible = f.visible) := by
  unfold NodeFields.withField at h
  split at h
  case h_1 =>
    obtain ⟨a, -, rfl⟩ := exists_of_map_eq_ok h
    exact ⟨fun hk => absurd rfl hk, fun _ => rfl, fun _ => rfl, fun _ => rfl⟩
  case h_2 =>
    obtain ⟨a, -, rfl⟩ := exists_of_map_eq_ok h
    exact ⟨fun _ => rfl, fun hk => absurd rfl hk, fun _ => rfl, fun _ => rfl⟩
  case h_3 =>
    obtain ⟨a, -, rfl⟩ := exists_of_map_eq_ok h
    exact ⟨fun _ => rfl, fun _ => rfl, fun hk => absurd rfl hk, fun _ => rfl⟩
  case h_4 =>
    obtain ⟨a, -, rfl⟩ := exists_of_map_eq_ok h
    exact ⟨fun _ => rfl, fun _ => rfl, fun _ => rfl, fun hk => absurd rfl hk⟩
  case h_16 =>
    cases h
    exact ⟨fun _ => rfl, fun _ => rfl, fun _ => rfl, fun _ => rfl⟩
  all_goals
    obtain ⟨a, -, rfl⟩ := exists_of_map_eq_ok h
    exact ⟨fun _ => rfl, fun _ => rfl, fun _ => rfl, fun _ => rfl⟩

theorem string?_of_decodeString {v : Json} {s : String} (h : decodeString v = .ok s) :
    (string? v).getD "" = s := by
  cases v with
  | string t => cases h; rfl
  | _ => cases h

namespace NodeFields

variable {f f' : NodeFields} {v : Json}

theorem id_of_withField (h : f.withField "id" v = .ok f') : f'.id = (string? v).getD "" := by
  unfold withField at h
  obtain ⟨s, hs, rfl⟩ := exists_of_map_eq_ok h
  exact (string?_of_decodeString hs).symm

theorem name_of_withField (h : f.withField "name" v = .ok f') :
    f'.name = (string? v).getD "" := by
  unfold withField at h
  obtain ⟨s, hs, rfl⟩ := exists_of_map_eq_ok h
  exact (string?_of_decodeString hs).symm

theorem type_of_withField (h : f.withField "type" v = .ok f') :
    f'.type = (string? v).getD "" := by
  unfold withField at h
  obtain ⟨s, hs, rfl⟩ := exists_of_map_eq_ok h
  exact (string?_of_decodeString hs).symm

theorem visible_of_withField (h : f.withField "visible" v = .ok f') :
    f'.visible = InputNode.truth? v := by
  unfold withField at h
  obtain ⟨o, ho, rfl⟩ := exists_of_map_eq_ok h
  cases v with
  | null => cases ho; rfl
  | bool b => cases ho; rfl
  | _ => cases ho

end NodeFields

namespace NodeRecord

/-- What a record says in one of its fields is what the member with that key says, or what the
record said before when there is no such member. -/
theorem decodeMembers_field_eq {α : Type} {key : String} (hkey : key ≠ "children")
    {π : NodeFields → α} {value : Json → α}
    (hset : ∀ f v f', NodeFields.withField f key v = .ok f' → π f' = value v)
    (hkeep : ∀ f k v f', k ≠ key → NodeFields.withField f k v = .ok f' → π f' = π f)
    {ms : List (String × Json)} (hms : (ms.map Prod.fst).Nodup) {r r' : NodeRecord}
    (h : decodeMembers r ms = .ok r') :
    π r'.fields = (lookup? key ms).elim (π r.fields) value := by
  induction ms generalizing r with
  | nil =>
    rw [decodeMembers] at h
    cases h
    rfl
  | cons m ms ih =>
    obtain ⟨k, v⟩ := m
    obtain ⟨hk, hms'⟩ := List.nodup_cons.1 hms
    rw [decodeMembers] at h
    split at h
    · next hchildren =>
      have hne : k ≠ key := by
        rintro rfl
        exact hkey hchildren
      split at h
      · cases h
      · have hrest := ih hms' h
        rw [lookup?, if_neg hne]
        exact hrest
    · split at h
      · cases h
      · next r₁ hr₁ =>
        obtain ⟨f', hf', rfl⟩ := exists_of_map_eq_ok hr₁
        rw [ih hms' h, lookup?]
        by_cases heq : k = key
        · subst heq
          rw [if_pos rfl, lookup?_eq_none_of_not_mem hk]
          exact hset _ _ _ hf'
        · rw [if_neg heq]
          exact congrArg (fun a => (lookup? key ms).elim a value) (hkeep _ _ _ _ heq hf')

/-- The records inside a record are those of the member with that key. -/
theorem decodeMembers_children_eq {ms : List (String × Json)} (hms : (ms.map Prod.fst).Nodup)
    {r r' : NodeRecord} (h : decodeMembers r ms = .ok r') :
    match lookup? "children" ms with
    | some w => decodeChildren w = .ok r'.children
    | none => r'.children = r.children := by
  induction ms generalizing r with
  | nil =>
    rw [decodeMembers] at h
    cases h
    rfl
  | cons m ms ih =>
    obtain ⟨k, v⟩ := m
    obtain ⟨hk, hms'⟩ := List.nodup_cons.1 hms
    rw [decodeMembers] at h
    rw [lookup?]
    split at h
    · next heq =>
      subst heq
      split at h
      · cases h
      · next cs hcs =>
        have hrest := ih hms' h
        rw [lookup?_eq_none_of_not_mem hk] at hrest
        rw [if_pos rfl]
        rw [show r'.children = cs from hrest]
        exact hcs
    · next hne =>
      split at h
      · cases h
      · next r₁ hr₁ =>
        obtain ⟨f', -, rfl⟩ := exists_of_map_eq_ok hr₁
        have hrest := ih hms' h
        rw [if_neg hne]
        exact hrest

/-- An array is decoded like an object with the fields in order as its keys. -/
theorem decodeFields_eq (r : NodeRecord) (names : List String) (vs : List Json) :
    decodeFields r names vs = decodeMembers r (names.zip vs) := by
  induction vs generalizing r names with
  | nil => rw [decodeFields, List.zip_nil_right, decodeMembers]
  | cons v vs ih =>
    cases names with
    | nil => rw [decodeFields, List.zip_nil_left, decodeMembers]
    | cons k ks =>
      rw [decodeFields, List.zip_cons_cons, decodeMembers]
      simp only [ih]

/-- A record is decoded from what its value says as a node. -/
theorem decodeMembers_of_decode {v : Json} {r : NodeRecord} (h : decode v = .ok r) :
    decodeMembers empty (InputNode.members v) = .ok r := by
  cases v with
  | object ms =>
    rw [decode] at h
    exact h
  | array vs =>
    rw [decode, decodeFields_eq] at h
    split at h
    · cases h
    · next r' hr' =>
      split at h
      · cases h
      · cases h
        exact hr'
  | _ => cases h

end NodeRecord

theorem InputNode.map_fst_zip_sublist (ks : List String) (vs : List Json) :
    ((ks.zip vs).map Prod.fst).Sublist ks := by
  induction ks generalizing vs with
  | nil => exact List.Sublist.refl _
  | cons k ks ih =>
    cases vs with
    | nil => exact List.nil_sublist _
    | cons v vs => exact (ih vs).cons_cons k

/-- In an ordered value a node has every key once. -/
theorem InputNode.nodup_members {v : Json} (h : v.IsOrdered) :
    ((members v).map Prod.fst).Nodup := by
  cases v with
  | object ms => exact nodup_keys h
  | array vs =>
    have hnames : NodeRecord.fieldNames.Nodup := by decide
    exact hnames.sublist (map_fst_zip_sublist _ vs)
  | _ => exact List.nodup_nil

/-- What a record says of a node is what its value says. -/
theorem NodeRecord.fields_of_decode {v : Json} (hv : v.IsOrdered) {r : NodeRecord}
    (h : decode v = .ok r) :
    r.fields.id = InputNode.string "id" v ∧ r.fields.name = InputNode.string "name" v ∧
      r.fields.type = InputNode.string "type" v ∧
      r.fields.visible.getD true = InputNode.isShown v := by
  have hms := InputNode.nodup_members hv
  have hdec := decodeMembers_of_decode h
  have hid := decodeMembers_field_eq (by decide) (fun _ _ _ => NodeFields.id_of_withField)
    (fun _ _ _ _ hk h => (NodeFields.eq_of_withField h).1 hk) hms hdec
  have hname := decodeMembers_field_eq (by decide) (fun _ _ _ => NodeFields.name_of_withField)
    (fun _ _ _ _ hk h => (NodeFields.eq_of_withField h).2.1 hk) hms hdec
  have htype := decodeMembers_field_eq (by decide) (fun _ _ _ => NodeFields.type_of_withField)
    (fun _ _ _ _ hk h => (NodeFields.eq_of_withField h).2.2.1 hk) hms hdec
  have hvisible := decodeMembers_field_eq (by decide)
    (fun _ _ _ => NodeFields.visible_of_withField)
    (fun _ _ _ _ hk h => (NodeFields.eq_of_withField h).2.2.2 hk) hms hdec
  have hdefault : ∀ key, (lookup? key (InputNode.members v)).elim "" (fun w => (string? w).getD "") =
      InputNode.string key v := by
    intro key
    rw [InputNode.string, InputNode.field?]
    cases lookup? key (InputNode.members v) <;> rfl
  refine ⟨hid.trans (hdefault _), hname.trans (hdefault _), htype.trans (hdefault _), ?_⟩
  rw [hvisible, InputNode.isShown, InputNode.field?]
  cases lookup? "visible" (InputNode.members v) <;> rfl

/-- The records inside a record are decoded from the nodes inside its value. -/
theorem NodeRecord.decodeAll_children {v : Json} (hv : v.IsOrdered) {r : NodeRecord}
    (h : decode v = .ok r) : decodeAll (InputNode.children v) = .ok r.children := by
  have hchildren :=
    decodeMembers_children_eq (InputNode.nodup_members hv) (decodeMembers_of_decode h)
  rw [InputNode.children, InputNode.field?]
  cases hlookup : lookup? "children" (InputNode.members v) with
  | none =>
    rw [hlookup] at hchildren
    rw [show r.children = [] from hchildren]
    rfl
  | some w =>
    rw [hlookup] at hchildren
    cases w with
    | array vs => exact hchildren
    | null => exact hchildren
    | _ => cases hchildren

namespace InputNode

theorem isOrdered_of_mem_members {v : Json} (hv : v.IsOrdered) {m : String × Json}
    (h : m ∈ members v) : m.2.IsOrdered := by
  cases v with
  | object ms =>
    rw [IsOrdered] at hv
    exact orderedMembers_iff.1 hv.2 m h
  | array vs =>
    rw [IsOrdered] at hv
    exact allOrdered_iff.1 hv _ (List.of_mem_zip h).2
  | _ => cases h

/-- The nodes inside an ordered value are ordered. -/
theorem allOrdered_children {v : Json} (hv : v.IsOrdered) : AllOrdered (children v) := by
  unfold children
  split
  · next vs h =>
    have := isOrdered_of_mem_members hv (mem_of_lookup?_eq_some h)
    rwa [IsOrdered] at this
  · rw [AllOrdered]
    trivial

/-- The trees of an ordered document are ordered. -/
theorem allOrdered_roots {v : Json} (hv : v.IsOrdered) : AllOrdered (roots v) := by
  unfold roots
  split
  · rwa [IsOrdered] at hv
  · next ms =>
    split
    · next vs h =>
      have := isOrdered_of_mem_members hv (mem_of_lookup?_eq_some h)
      rwa [IsOrdered] at this
    · rw [AllOrdered]
      trivial
    · rw [AllOrdered, AllOrdered]
      exact ⟨hv, trivial⟩
  · rw [AllOrdered]
    trivial

end InputNode

/-! ### Trees -/

theorem NodeRecord.length_of_decodeAll {vs : List Json} {rs : List NodeRecord}
    (h : decodeAll vs = .ok rs) : rs.length = vs.length := by
  induction vs generalizing rs with
  | nil => cases h; rfl
  | cons v vs ih =>
    rw [decodeAll] at h
    split at h
    · cases h
    · split at h
      · cases h
      · next rs' hrs' =>
        cases h
        rw [List.length_cons, List.length_cons, ih hrs']

theorem NodeRecord.length_toNodes (depth : Nat) (rs : List NodeRecord) :
    (toNodes depth rs).length = rs.length := by
  induction rs with
  | nil => rfl
  | cons r rs ih => rw [toNodes, List.length_cons, List.length_cons, ih]

namespace SceneNode

variable {v : Json} {i : NodeInfo}

theorem renders_text {t : Typography} (hs : (text i t).summary = InputNode.summary v)
    (hkind : i.kind = .text) : (text i t).Renders v where
  summary := hs
  text_iff := iff_of_true ⟨i, t, rfl⟩ hkind
  shape_iff := iff_of_false (by rintro ⟨_, _, h⟩; cases h) fun h => h.1 hkind
  container_iff := iff_of_false (by rintro ⟨_, _, _, h⟩; cases h) fun h => h.1 hkind
  length_children := fun h => absurd hkind h

theorem renders_shape {p : Paint} (hs : (shape i p).summary = InputNode.summary v)
    (hkind : i.kind ≠ .text) (hshape : i.kind.isContainer = false)
    (hnone : InputNode.children v = []) : (shape i p).Renders v where
  summary := hs
  text_iff := iff_of_false (by rintro ⟨_, _, h⟩; cases h) hkind
  shape_iff := iff_of_true ⟨i, p, rfl⟩ ⟨hkind, hshape, hnone⟩
  container_iff := iff_of_false (by rintro ⟨_, _, _, h⟩; cases h) fun h =>
    h.2.elim (Bool.eq_false_iff.1 hshape) fun hsome => hsome hnone
  length_children := fun _ => by rw [hnone]; rfl

theorem renders_container {p : Paint} {cs : List SceneNode}
    (hs : (container i p cs).summary = InputNode.summary v) (hkind : i.kind ≠ .text)
    (hcontainer : i.kind.isContainer = true ∨ InputNode.children v ≠ [])
    (hlength : cs.length = (InputNode.children v).length) : (container i p cs).Renders v where
  summary := hs
  text_iff := iff_of_false (by rintro ⟨_, _, h⟩; cases h) hkind
  shape_iff := iff_of_false (by rintro ⟨_, _, h⟩; cases h) fun h =>
    hcontainer.elim (Bool.eq_false_iff.1 h.2.1) fun hsome => hsome h.2.2
  container_iff := iff_of_true ⟨i, p, cs, rfl⟩ ⟨hkind, hcontainer⟩
  length_children := fun _ => hlength

end SceneNode

/-- The root of the tree of a value. -/
theorem NodeRecord.renders_toNode {v : Json} (hv : v.IsOrdered) {r : NodeRecord}
    (h : decode v = .ok r) (depth : Nat) : (r.toNode depth).Renders v := by
  obtain ⟨f, cs⟩ := r
  obtain ⟨hid, hname, htype, hvisible⟩ := fields_of_decode hv h
  have hlength : cs.length = (InputNode.children v).length :=
    length_of_decodeAll (decodeAll_children hv h)
  have hnil : InputNode.children v = [] ↔ cs = [] := by
    rw [← List.length_eq_zero_iff, ← hlength, List.length_eq_zero_iff]
  have hsummary : NodeSummary.mk (f.info depth).id (f.info depth).name (f.info depth).kind.name
      (f.info depth).visible = InputNode.summary v := by
    rw [InputNode.summary, ← hid, ← hname, ← htype, ← hvisible]
    exact congrArg (NodeSummary.mk f.id f.name · (f.visible.getD true)) (NodeKind.name_ofName _)
  rw [toNode]
  split
  · next htext => exact SceneNode.renders_text hsummary htext
  · next htext =>
    split
    · next hinside =>
      refine SceneNode.renders_container hsummary htext ?_ ((length_toNodes _ _).trans hlength)
      refine (Bool.or_eq_true_iff.1 hinside).imp_right fun hsome hempty => ?_
      rw [hnil.1 hempty] at hsome
      cases hsome
    · next hinside =>
      obtain ⟨hshape, hnone⟩ := Bool.or_eq_false_iff.1 (Bool.eq_false_iff.2 hinside)
      refine SceneNode.renders_shape hsummary htext hshape (hnil.2 ?_)
      rwa [Bool.not_eq_false', List.isEmpty_iff] at hnone

/-- The tree of a record in preorder. -/
theorem NodeRecord.preorder_toNode (r : NodeRecord) (depth : Nat) :
    (r.toNode depth).preorder = r.toNode depth ::
      if NodeKind.ofName r.fields.type = .text then []
      else SceneNode.preorderAll (toNodes (depth + 1) r.children) := by
  obtain ⟨f, cs⟩ := r
  rw [toNode, fields, children]
  by_cases htext : NodeKind.ofName f.type = .text
  · rw [if_pos htext, if_pos htext]
    rfl
  · rw [if_neg htext, if_neg htext]
    split
    · rfl
    · next hinside =>
      obtain ⟨-, hnone⟩ := Bool.or_eq_false_iff.1 (Bool.eq_false_iff.2 hinside)
      rw [Bool.not_eq_false', List.isEmpty_iff] at hnone
      rw [hnone]
      rfl

/-- **The trees of some values, node by node.** -/
theorem SceneNode.renders_preorder (vs : List Json) (hvs : AllOrdered vs) {rs : List NodeRecord}
    (h : NodeRecord.decodeAll vs = .ok rs) (depth : Nat) :
    List.Forall₂ (fun v n => n.Renders v) (InputNode.preorder vs)
      (preorderAll (NodeRecord.toNodes depth rs)) := by
  induction vs using InputNode.preorder.induct generalizing rs depth with
  | case1 =>
    cases h
    rw [InputNode.preorder]
    exact List.Forall₂.nil
  | case2 v vs ih₁ ih₂ =>
    rw [AllOrdered] at hvs
    rw [NodeRecord.decodeAll] at h
    split at h
    · cases h
    · next r hr =>
      split at h
      · cases h
      · next rs' hrs' =>
        cases h
        have hroot := NodeRecord.renders_toNode hvs.1 hr depth
        have hinside := ih₁ (InputNode.allOrdered_children hvs.1)
          (NodeRecord.decodeAll_children hvs.1 hr) (depth + 1)
        have htype : InputNode.isText v = true ↔ NodeKind.ofName r.fields.type = .text := by
          rw [InputNode.isText, beq_iff_eq, NodeKind.ofName_eq_text_iff,
            (NodeRecord.fields_of_decode hvs.1 hr).2.2.1]
        rw [InputNode.preorder, NodeRecord.toNodes, preorderAll, NodeRecord.preorder_toNode]
        refine List.Forall₂.cons hroot (List.rel_append ?_ (ih₂ hvs.2 hrs' depth))
        -- the nodes inside a text are dropped on both sides
        by_cases htext : InputNode.isText v = true
        · rw [if_pos htext, if_pos (htype.1 htext)]
          exact List.Forall₂.nil
        · rw [if_neg htext, if_neg (mt htype.2 htext)]
          exact hinside

/-! ### Documents -/

theorem decodeAll_of_rootsFrom {index : Nat} {vs : List Json} {ns : List SceneNode}
    (h : rootsFrom index vs = .ok ns) :
    ∃ rs, NodeRecord.decodeAll vs = .ok rs ∧ ns = NodeRecord.toNodes 0 rs := by
  induction vs generalizing index ns with
  | nil =>
    cases h
    exact ⟨[], rfl, rfl⟩
  | cons v vs ih =>
    unfold rootsFrom at h
    split at h
    · cases h
    · next r hr =>
      split at h
      · cases h
      · next ns' hns' =>
        cases h
        obtain ⟨rs, hrs, rfl⟩ := ih hns'
        refine ⟨r :: rs, ?_, rfl⟩
        rw [NodeRecord.decodeAll, hr, hrs]

namespace Selection

theorem decodeAll_of_ofItems {fileName : Option String} {vs : List Json} {s : Selection}
    (h : ofItems fileName vs = .ok s) :
    ∃ rs, NodeRecord.decodeAll vs = .ok rs ∧ s.roots = NodeRecord.toNodes 0 rs := by
  unfold ofItems at h
  split at h
  · cases h
  · next roots hroots =>
    cases h
    exact decodeAll_of_rootsFrom hroots

/-- The trees of a selection are those of its document. -/
theorem decodeAll_of_ofJson? {v : Json} {s : Selection} (h : ofJson? v = .ok s) :
    ∃ rs, NodeRecord.decodeAll (InputNode.roots v) = .ok rs ∧
      s.roots = NodeRecord.toNodes 0 rs := by
  unfold ofJson? at h
  split at h
  · exact decodeAll_of_ofItems h
  · exact decodeAll_of_ofItems h
  · next ms =>
    rw [InputNode.roots]
    split at h
    · next hlookup =>
      rw [hlookup]
      exact decodeAll_of_ofItems h
    · next hlookup =>
      rw [hlookup]
      exact decodeAll_of_ofItems h
    · cases h
    · next hlookup =>
      rw [hlookup]
      exact decodeAll_of_ofItems h
  · cases h

/-- **The nodes of a selection are the nodes of its document.**  The selection that is read from a
text has, in preorder, the identifiers, names, types and visibilities of the nodes of the document
in their order, without those inside of texts and with the defaults filled in; and each node is a
text, a shape or a container by its type and by whether there are nodes inside it. -/
theorem nodes_of_parse {text : List Char} {s : Selection} (h : parse text = .ok s) :
    ∃ v, Json.read text = .ok v ∧
      (SceneNode.preorderAll s.roots).map SceneNode.summary =
        (InputNode.preorder (InputNode.roots v)).map InputNode.summary ∧
      List.Forall₂ (fun v n => n.Renders v) (InputNode.preorder (InputNode.roots v))
        (SceneNode.preorderAll s.roots) := by
  unfold parse at h
  split at h
  · cases h
  · next v hv =>
    obtain ⟨rs, hrs, hroots⟩ := decodeAll_of_ofJson? h
    have hall := SceneNode.renders_preorder _ (InputNode.allOrdered_roots (isOrdered_of_read hv))
      hrs 0
    rw [hroots]
    refine ⟨v, hv, ?_, hall⟩
    rw [← List.forall₂_eq_eq_eq, List.forall₂_map_left_iff, List.forall₂_map_right_iff]
    exact (hall.imp fun _ _ h => h.summary).flip

/-- A node of an unknown type with a text and a line inside it; the text has a node inside it, which
is dropped, and the line is given as an array. -/
theorem nodes_of_parse_widget :
    let document :=
      "[\x7b\"id\": \"1\", \"type\": \"WIDGET\", \"children\": [" ++
        "\x7b\"type\": \"TEXT\", \"children\": [\x7b\"id\": \"2\"\x7d]\x7d, " ++
        "[\"3\", \"Rule\", \"LINE\", false]]\x7d]"
    ∃ s v, parse document.toList = .ok s ∧ Json.read document.toList = .ok v ∧
      (SceneNode.preorderAll s.roots).map SceneNode.summary =
        [⟨"1", "", "WIDGET", true⟩, ⟨"", "", "TEXT", true⟩, ⟨"3", "Rule", "LINE", false⟩] ∧
      (InputNode.preorder (InputNode.roots v)).map InputNode.summary =
        [⟨"1", "", "WIDGET", true⟩, ⟨"", "", "TEXT", true⟩, ⟨"3", "Rule", "LINE", false⟩] := by
  intro document
  have hnodes : (parse document.toList).toOption.map (fun s =>
      (SceneNode.preorderAll s.roots).map SceneNode.summary) =
        some [⟨"1", "", "WIDGET", true⟩, ⟨"", "", "TEXT", true⟩, ⟨"3", "Rule", "LINE", false⟩] := by
    decide +kernel
  cases h : parse document.toList with
  | error e =>
    rw [h] at hnodes
    cases hnodes
  | ok s =>
    rw [h] at hnodes
    obtain ⟨v, hv, hsummary, -⟩ := nodes_of_parse h
    have hlist := Option.some.inj hnodes
    exact ⟨s, v, rfl, hv, hlist, hsummary.symm.trans hlist⟩

end Selection
end SceneMarkup
