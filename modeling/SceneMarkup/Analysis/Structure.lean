import SceneMarkup.Analysis.Naming
import SceneMarkup.Scene.Walk

/-!
# The structure of a scene

How a scene should be marked up: the regions of its top-level nodes, its headings and paragraphs,
its lists, its components and its images.  All of it is collected on one way through the scene; the
depth of a heading is counted on the way and not taken from the nodes.

## Main definitions

* `isTitle`, `headingTag`, `isRepeating`, `isImage` — the rules for single nodes.
* `Analysis` — what is collected.
* `collector`, `analyze` — the way through the scene.
-/

namespace SceneMarkup

/-! ### Rules for single nodes -/

/-- Texts of so many characters are no titles. -/
def titleLimit : Nat := 50

/-- Whether a text is a title: it is short, and its name or the size of its font tells so. -/
def isTitle (name text : String) (fontSize : Option Float) : Bool :=
  if titleLimit ≤ text.toList.length then false
  else
    mentions ["title", "heading", "header"] name ||
      match fontSize with
      | some size => decide (20.0 < size)
      | none => false

/-- The tag of a heading at a depth: there are six levels. -/
def headingTag (depth : Nat) : String := "h" ++ Nat.repr (min (depth + 1) 6)

/-- Whether nodes are more than two, and all of the type of the first. -/
def isRepeating : List SceneNode → Bool
  | [] => false
  | n :: ns => 2 < (n :: ns).length && ns.all fun m => m.info.kind == n.info.kind

/-- Whether a node stands for an image, by its type or its name. -/
def isImage (n : SceneNode) : Bool :=
  n.info.kind.isPrimitiveShape || n.nameContains ["image", "img", "photo", "picture"]

/-! ### What is collected -/

/-- A container whose nodes are the items of a list. -/
structure ListStructure where
  /-- The name of the container. -/
  parentName : String
  /-- How many items there are. -/
  itemCount : Nat
  /-- The tags to use. -/
  tag : String
  deriving DecidableEq, Repr

/-- A text. -/
structure TextElement where
  /-- The text. -/
  text : String
  /-- Whether it is a title. -/
  isTitle : Bool
  /-- The size of its font. -/
  fontSize : Option Float
  /-- The tag to use. -/
  tag : String
  deriving DecidableEq

/-- A button. -/
structure ButtonElement where
  /-- The name of its container. -/
  name : String
  /-- The tag to use. -/
  tag : String
  deriving DecidableEq, Repr

/-- An image. -/
structure ImageElement where
  /-- The name of its node. -/
  name : String
  /-- Its extent. -/
  size : Option Size
  /-- The tags to use. -/
  tag : String
  deriving DecidableEq

/-- How a scene should be marked up. -/
structure Analysis where
  /-- The regions of the top-level nodes, in order. -/
  regions : List Region := []
  /-- The components of the containers. -/
  components : List Component := []
  /-- The lists. -/
  lists : List ListStructure := []
  /-- The texts that are not empty. -/
  texts : List TextElement := []
  /-- The buttons. -/
  buttons : List ButtonElement := []
  /-- The images. -/
  images : List ImageElement := []
  deriving DecidableEq

namespace Analysis

/-- Whether nothing was found. -/
def isEmpty (a : Analysis) : Bool :=
  a.regions.isEmpty && a.components.isEmpty && a.lists.isEmpty && a.texts.isEmpty &&
    a.buttons.isEmpty && a.images.isEmpty

/-- The components that were found, each at its first occurrence. -/
def uniqueComponents (a : Analysis) : List Component := a.components.eraseDups

end Analysis

/-! ### The way through the scene -/

/-- The entry for a text at a depth. -/
def textElement (depth : Nat) (i : NodeInfo) (t : Typography) : TextElement :=
  let title := isTitle i.name t.text t.fontSize
  { text := t.text
    isTitle := title
    fontSize := t.fontSize
    tag := if title then headingTag depth else "p" }

/-- What is known on the way: how deep it is, and what has been collected. -/
structure Collected where
  /-- How many containers the way is inside of. -/
  depth : Nat := 0
  /-- What has been collected. -/
  found : Analysis := {}

namespace Collected

/-- The region of a top-level node. -/
def addRegion (n : SceneNode) (c : Collected) : Collected :=
  if c.depth = 0 then
    { c with found := { c.found with regions := c.found.regions ++ [Region.ofName n.info.name] } }
  else c

/-- The entry for a text. -/
def addText (i : NodeInfo) (t : Typography) (c : Collected) : Collected :=
  if t.text.isEmpty then c
  else { c with found := { c.found with texts := c.found.texts ++ [textElement c.depth i t] } }

/-- The entry for a container whose nodes are the items of a list. -/
def addList (i : NodeInfo) (cs : List SceneNode) (a : Analysis) : Analysis :=
  if isRepeating cs then { a with lists := a.lists ++ [⟨i.name, cs.length, "ul/li"⟩] } else a

/-- The entries for a container that is a component. -/
def addComponent (i : NodeInfo) (a : Analysis) : Analysis :=
  match Component.ofName? i.name with
  | none => a
  | some .buttons =>
    { a with
      components := a.components ++ [.buttons]
      buttons := a.buttons ++ [⟨i.name, "button"⟩] }
  | some k => { a with components := a.components ++ [k] }

/-- The entries for a container, and one level deeper. -/
def enter (i : NodeInfo) (cs : List SceneNode) (c : Collected) : Collected :=
  { depth := c.depth + 1, found := addComponent i (addList i cs c.found) }

/-- One level up. -/
def leave (c : Collected) : Collected := { c with depth := c.depth - 1 }

/-- The entry for an image. -/
def addImage (n : SceneNode) (c : Collected) : Collected :=
  if isImage n then
    { c with
      found :=
        { c.found with images := c.found.images ++ [⟨n.info.name, n.info.size, "figure/img"⟩] } }
  else c

end Collected

/-- The visitor that collects the structure of a scene. -/
def collector : Visitor Collected where
  node n walkOn c := (walkOn (c.addRegion n)).addImage n
  text := Collected.addText
  container i _ cs walkOn c := (walkOn (c.enter i cs)).leave

/-- The structure of a scene. -/
def analyze (roots : List SceneNode) : Analysis := (collector.walkAll roots {}).found

end SceneMarkup
