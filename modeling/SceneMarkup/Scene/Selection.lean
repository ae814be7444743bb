import SceneMarkup.Scene.Node

/-!
# Selections

What is selected in a design: some trees in order, and the name of the file they are from.

## Main definitions

* `Selection` — the selections.
* `Selection.ofRoots` — the selection of some trees, with all depths put right.
-/

namespace SceneMarkup

/-- The trees selected in a design. -/
structure Selection where
  /-- The name of the file, if it is known. -/
  fileName : Option String := none
  /-- The trees. -/
  roots : List SceneNode := []

namespace Selection

/-- The selection of some trees; the depth of every node becomes its distance from its root. -/
def ofRoots (roots : List SceneNode) : Selection := { roots := SceneNode.assignAll 0 roots }

/-- Whether nothing is selected. -/
def isEmpty (s : Selection) : Bool := s.roots.isEmpty

/-- How many nodes are selected, those inside others included. -/
def nodeCount (s : Selection) : Nat := SceneNode.countAll s.roots

end Selection
end SceneMarkup
