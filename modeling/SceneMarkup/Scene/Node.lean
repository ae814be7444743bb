import SceneMarkup.Text.Basic
import SceneMarkup.Text.Lowercase

/-!
# Scene nodes

A scene is a tree of nodes as a design tool shows them.  Every node is a text, a shape, or a
container with nodes inside it.

## Main definitions

* `Position`, `Size`, `Rgba` — geometry and colour.
* `NodeKind` — the types of nodes that the design tool tells apart.
* `NodeInfo`, `Typography`, `Paint` — what nodes carry.
* `SceneNode` — the nodes.
* `SceneNode.nodeCount`, `SceneNode.assignDepths` — the size of a tree, and the depths of its nodes.

## Main results

* `nodeCount_assignDepths` — new depths change no number of nodes.
* `length_preorder` — listing a tree in preorder lists each of its nodes once.
-/

namespace SceneMarkup

/-- The upper left corner of a node. -/
structure Position where
  /-- The distance from the left. -/
  x : Float
  /-- The distance from the top. -/
  y : Float
  deriving DecidableEq

/-- The extent of a node. -/
structure Size where
  /-- The width. -/
  width : Float
  /-- The height. -/
  height : Float
  deriving DecidableEq

/-- A colour: three channels from 0 to 255 and an opacity from 0 to 1. -/
structure Rgba where
  /-- Red. -/
  r : Float
  /-- Green. -/
  g : Float
  /-- Blue. -/
  b : Float
  /-- The opacity. -/
  a : Float := 1.0
  deriving DecidableEq

/-- The type of a node in the design tool. -/
inductive NodeKind where
  | text
  | frame
  | group
  | component
  | componentSet
  | componentInstance
  | pageSection
  | booleanOperation
  | rectangle
  | ellipse
  | vector
  | line
  | polygon
  | star
  /-- A type that is not known here, by its name. -/
  | other (name : String)
  deriving DecidableEq, Repr

namespace NodeKind

/-- The known types by their names. -/
def known : List (String × NodeKind) :=
  [("TEXT", text), ("FRAME", frame), ("GROUP", group), ("COMPONENT", component),
   ("COMPONENT_SET", componentSet), ("INSTANCE", componentInstance), ("SECTION", pageSection),
   ("BOOLEAN_OPERATION", booleanOperation), ("RECTANGLE", rectangle), ("ELLIPSE", ellipse),
   ("VECTOR", vector), ("LINE", line), ("POLYGON", polygon), ("STAR", star)]

/-- The type of a name. -/
def ofName (name : String) : NodeKind :=
  match known.find? fun entry => entry.1 == name with
  | some entry => entry.2
  | none => other name

/-- The name of a type. -/
def name : NodeKind → String
  | text => "TEXT"
  | frame => "FRAME"
  | group => "GROUP"
  | component => "COMPONENT"
  | componentSet => "COMPONENT_SET"
  | componentInstance => "INSTANCE"
  | pageSection => "SECTION"
  | booleanOperation => "BOOLEAN_OPERATION"
  | rectangle => "RECTANGLE"
  | ellipse => "ELLIPSE"
  | vector => "VECTOR"
  | line => "LINE"
  | polygon => "POLYGON"
  | star => "STAR"
  | other name => name

/-- Whether nodes of a type own other nodes even when there are none. -/
def isContainer : NodeKind → Bool
  | frame | group | component | componentSet => true
  | componentInstance | pageSection | booleanOperation => true
  | _ => false

/-- Whether nodes of a type stand for images. -/
def isPrimitiveShape : NodeKind → Bool
  | rectangle | ellipse => true
  | _ => false

/-- Whether a type is not known here. -/
def isOther : NodeKind → Bool
  | other _ => true
  | _ => false

end NodeKind

/-- What every node carries. -/
structure NodeInfo where
  /-- The identifier in the design tool. -/
  id : String := ""
  /-- The name. -/
  name : String
  /-- The type. -/
  kind : NodeKind
  /-- Whether the node is shown. -/
  visible : Bool := true
  /-- The distance from the root of the tree. -/
  depth : Nat := 0
  /-- The upper left corner. -/
  position : Option Position := none
  /-- The extent. -/
  size : Option Size := none
  deriving DecidableEq

/-- What a text node shows, and how. -/
structure Typography where
  /-- The text. -/
  text : String := ""
  /-- The size of the font. -/
  fontSize : Option Float := none
  /-- The family of the font. -/
  fontFamily : Option String := none
  /-- The weight of the font. -/
  fontWeight : Option String := none
  /-- The colour of the text. -/
  color : Option Rgba := none
  deriving DecidableEq

/-- How a shape or a container is painted. -/
structure Paint where
  /-- The colour of the background. -/
  background : Option Rgba := none
  /-- The colour of the border. -/
  borderColor : Option Rgba := none
  /-- The width of the border. -/
  borderWidth : Option Float := none
  /-- The radius of the corners. -/
  borderRadius : Option Float := none
  deriving DecidableEq

/-- A node of a scene. -/
inductive SceneNode where
  /-- A text. -/
  | text (info : NodeInfo) (typography : Typography)
  /-- A shape without nodes inside it. -/
  | shape (info : NodeInfo) (paint : Paint)
  /-- A container with the nodes inside it. -/
  | container (info : NodeInfo) (paint : Paint) (children : List SceneNode)

namespace SceneNode

/-- What every node carries. -/
def info : SceneNode → NodeInfo
  | .text i _ => i
  | .shape i _ => i
  | .container i _ _ => i

@[simp] theorem info_text (i : NodeInfo) (t : Typography) : (text i t).info = i := rfl

@[simp] theorem info_shape (i : NodeInfo) (p : Paint) : (shape i p).info = i := rfl

@[simp] theorem info_container (i : NodeInfo) (p : Paint) (cs : List SceneNode) :
    (container i p cs).info = i := rfl

/-- A node with what it carries changed. -/
def mapInfo (f : NodeInfo → NodeInfo) : SceneNode → SceneNode
  | .text i t => .text (f i) t
  | .shape i p => .shape (f i) p
  | .container i p cs => .container (f i) p cs

@[simp] theorem info_mapInfo (f : NodeInfo → NodeInfo) (n : SceneNode) :
    (n.mapInfo f).info = f n.info := by
  cases n <;> rfl

/-- The nodes inside a node. -/
def children : SceneNode → List SceneNode
  | .container _ _ cs => cs
  | _ => []

@[simp] theorem children_text (i : NodeInfo) (t : Typography) : (text i t).children = [] := rfl

@[simp] theorem children_shape (i : NodeInfo) (p : Paint) : (shape i p).children = [] := rfl

@[simp] theorem children_container (i : NodeInfo) (p : Paint) (cs : List SceneNode) :
    (container i p cs).children = cs := rfl

/-- What a text node shows. -/
def typography? : SceneNode → Option Typography
  | .text _ t => some t
  | _ => none

/-- How a shape or a container is painted. -/
def paint? : SceneNode → Option Paint
  | .text _ _ => none
  | .shape _ p => some p
  | .container _ p _ => some p

/-- Whether a node is a container. -/
def isContainer : SceneNode → Bool
  | .container _ _ _ => true
  | _ => false

/-- Whether the name of a node contains one of some words, in lower case. -/
def nameContains (words : List String) (n : SceneNode) : Bool :=
  let name := Text.lower n.info.name.toList
  words.any fun w => Text.contains w.toList name

/-! ### Building nodes -/

/-- A text node. -/
def ofText (name content : String) : SceneNode :=
  .text { name := name, kind := .text } { text := content }

/-- A shape of a type. -/
def ofShape (kind : NodeKind) (name : String) : SceneNode :=
  .shape { name := name, kind := kind } {}

/-- A container of a type. -/
def ofChildren (kind : NodeKind) (name : String) (cs : List SceneNode) : SceneNode :=
  .container { name := name, kind := kind } {} cs

/-- A node with an identifier. -/
def withId (id : String) (n : SceneNode) : SceneNode := n.mapInfo fun i => { i with id := id }

/-- A node with an extent. -/
def withSize (s : Size) (n : SceneNode) : SceneNode := n.mapInfo fun i => { i with size := some s }

/-- A node with an upper left corner. -/
def withPosition (p : Position) (n : SceneNode) : SceneNode :=
  n.mapInfo fun i => { i with position := some p }

/-- A text node with a size of the font; other nodes have none. -/
def withFontSize (x : Float) : SceneNode → SceneNode
  | .text i t => .text i { t with fontSize := some x }
  | n => n

/-- A text node with a family of the font; other nodes have none. -/
def withFontFamily (family : String) : SceneNode → SceneNode
  | .text i t => .text i { t with fontFamily := some family }
  | n => n

/-- A node with a background; that of a text is the colour of its letters. -/
def withBackground (c : Rgba) : SceneNode → SceneNode
  | .text i t => .text i { t with color := some c }
  | .shape i p => .shape i { p with background := some c }
  | .container i p cs => .container i { p with background := some c } cs

/-- A node with a border; texts have none. -/
def withBorder (c : Rgba) (width : Float) : SceneNode → SceneNode
  | .text i t => .text i t
  | .shape i p => .shape i { p with borderColor := some c, borderWidth := some width }
  | .container i p cs =>
    .container i { p with borderColor := some c, borderWidth := some width } cs

/-! ### Trees -/

mutual

/-- How many nodes a tree has. -/
def nodeCount : SceneNode → Nat
  | .text _ _ => 1
  | .shape _ _ => 1
  | .container _ _ cs => 1 + countAll cs

/-- How many nodes the trees of a forest have. -/
def countAll : List SceneNode → Nat
  | [] => 0
  | n :: ns => n.nodeCount + countAll ns

end

mutual

/-- A tree with the depths of its nodes counted from a depth of its root. -/
def assignDepths (depth : Nat) : SceneNode → SceneNode
  | .text i t => .text { i with depth := depth } t
  | .shape i p => .shape { i with depth := depth } p
  | .container i p cs => .container { i with depth := depth } p (assignAll (depth + 1) cs)

/-- Trees with the depths of their nodes counted from one depth of their roots. -/
def assignAll (depth : Nat) : List SceneNode → List SceneNode
  | [] => []
  | n :: ns => assignDepths depth n :: assignAll depth ns

end

mutual

/-- New depths leave the number of nodes as it is. -/
theorem nodeCount_assignDepths (depth : Nat) :
    ∀ n : SceneNode, (n.assignDepths depth).nodeCount = n.nodeCount
  | .text _ _ => rfl
  | .shape _ _ => rfl
  | .container _ _ cs => by simp only [assignDepths, nodeCount, countAll_assignAll (depth + 1) cs]

theorem countAll_assignAll (depth : Nat) :
    ∀ ns : List SceneNode, countAll (assignAll depth ns) = countAll ns
  | [] => rfl
  | n :: ns => by
    simp only [assignAll, countAll, nodeCount_assignDepths depth n, countAll_assignAll depth ns]

end

mutual

/-- The nodes of a tree, each before the nodes inside it. -/
def preorder : SceneNode → List SceneNode
  | .text i t => [.text i t]
  | .shape i p => [.shape i p]
  | .container i p cs => .container i p cs :: preorderAll cs

/-- The nodes of a forest, each before the nodes inside it. -/
def preorderAll : List SceneNode → List SceneNode
  | [] => []
  | n :: ns => preorder n ++ preorderAll ns

end

mutual

/-- A tree has as many nodes as its preorder lists. -/
theorem length_preorder : ∀ n : SceneNode, n.preorder.length = n.nodeCount
  | .text _ _ => rfl
  | .shape _ _ => rfl
  | .container _ _ cs => by
    simp only [preorder, nodeCount, List.length_cons, length_preorderAll cs]
    omega

theorem length_preorderAll : ∀ ns : List SceneNode, (preorderAll ns).length = countAll ns
  | [] => rfl
  | n :: ns => by
    simp only [preorderAll, countAll, List.length_append, length_preorder n, length_preorderAll ns]

end

theorem preorderAll_append (ms ns : List SceneNode) :
    preorderAll (ms ++ ns) = preorderAll ms ++ preorderAll ns := by
  induction ms with
  | nil => rfl
  | cons m ms ih => rw [List.cons_append, preorderAll, preorderAll, ih, List.append_assoc]

end SceneNode
end SceneMarkup
