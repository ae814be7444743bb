import SceneMarkup.Scene.Selection

/-!
# Walking through a scene

A visitor goes through a scene tree by tree, from each node to the nodes inside it, and changes a
state on its way.  It may pass over the nodes inside a container.

## Main definitions

* `Visitor` — what is done on the way.
* `Visitor.walk`, `Visitor.walkAll` — the way through a tree and through a forest.
* `Visitor.atEvery` — the visitor that does one thing at every node.
* `WalkEvent`, `walkEvents` — the stations of the way.
* `textNames` — the names of the texts on the way.

## Main results

* `Visitor.walkAll_atEvery` — where nothing is done but at every node, the way goes over the list of
  the nodes in preorder.
-/

namespace SceneMarkup

/-- What is done on the way through a scene.  A visitor itself goes on from a node and from a
container: `walkOn` goes from a node to what is done at a text, a shape or a container, and from a
container through the nodes inside it. -/
structure Visitor (σ : Type) where
  /-- At every node. -/
  node : SceneNode → (σ → σ) → σ → σ := fun _ walkOn => walkOn
  /-- At a text. -/
  text : NodeInfo → Typography → σ → σ := fun _ _ s => s
  /-- At a shape. -/
  shape : NodeInfo → Paint → σ → σ := fun _ _ s => s
  /-- At a container. -/
  container : NodeInfo → Paint → List SceneNode → (σ → σ) → σ → σ := fun _ _ _ walkOn => walkOn

namespace Visitor

variable {σ : Type}

mutual

/-- The way through a tree. -/
def walk (v : Visitor σ) : SceneNode → σ → σ
  | .text i t => v.node (.text i t) (v.text i t)
  | .shape i p => v.node (.shape i p) (v.shape i p)
  | .container i p cs => v.node (.container i p cs) (v.container i p cs (walkAll v cs))

/-- The way through a forest. -/
def walkAll (v : Visitor σ) : List SceneNode → σ → σ
  | [], s => s
  | n :: ns, s => walkAll v ns (walk v n s)

end

@[simp] theorem walkAll_nil (v : Visitor σ) (s : σ) : walkAll v [] s = s := rfl

@[simp] theorem walkAll_cons (v : Visitor σ) (n : SceneNode) (ns : List SceneNode) (s : σ) :
    walkAll v (n :: ns) s = walkAll v ns (walk v n s) := rfl

/-! ### What is done at every node -/

/-- The visitor that does one thing at every node before it goes on. -/
def atEvery (f : SceneNode → σ → σ) : Visitor σ where
  node n walkOn s := walkOn (f n s)

variable (f : SceneNode → σ → σ)

theorem walk_atEvery_container (i : NodeInfo) (p : Paint) (cs : List SceneNode) (s : σ) :
    walk (atEvery f) (.container i p cs) s = walkAll (atEvery f) cs (f (.container i p cs) s) := rfl

mutual

/-- Where nothing is done but at every node, a tree is its nodes in preorder. -/
theorem walk_atEvery : ∀ (n : SceneNode) (s : σ),
    walk (atEvery f) n s = n.preorder.foldl (fun s m => f m s) s
  | .text _ _, _ => rfl
  | .shape _ _, _ => rfl
  | .container i p cs, s => by
    rw [walk_atEvery_container, walkAll_atEvery cs, SceneNode.preorder, List.foldl_cons]

theorem walkAll_atEvery : ∀ (ns : List SceneNode) (s : σ),
    walkAll (atEvery f) ns s = (SceneNode.preorderAll ns).foldl (fun s m => f m s) s
  | [], _ => rfl
  | n :: ns, s => by
    rw [walkAll_cons, walk_atEvery n, walkAll_atEvery ns, SceneNode.preorderAll, List.foldl_append]

end

end Visitor

/-! ### Stations -/

/-- A station on the way through a scene. -/
inductive WalkEvent where
  /-- Any node. -/
  | node (name : String) (depth : Nat)
  /-- A text with what it shows. -/
  | text (name content : String)
  /-- A shape. -/
  | shape (name : String)
  /-- A container with the number of nodes inside it, before them. -/
  | enter (name : String) (count : Nat)
  /-- A container, after the nodes inside it. -/
  | leave (name : String)
  deriving DecidableEq, Repr

/-- A visitor that notes its stations, the last one first. -/
def eventVisitor (descends : NodeInfo → Bool) : Visitor (List WalkEvent) where
  node n walkOn es := walkOn (.node n.info.name n.info.depth :: es)
  text i t es := .text i.name t.text :: es
  shape i _ es := .shape i.name :: es
  container i _ cs walkOn es :=
    let inside := .enter i.name cs.length :: es
    .leave i.name :: if descends i then walkOn inside else inside

/-- The stations on the way through a forest. -/
def walkEvents (descends : NodeInfo → Bool) (ns : List SceneNode) : List WalkEvent :=
  ((eventVisitor descends).walkAll ns []).reverse

/-- A visitor that notes the names of texts, the last one first. -/
def textVisitor : Visitor (List String) where
  text i _ names := i.name :: names

/-- The names of the texts on the way through a forest. -/
def textNames (ns : List SceneNode) : List String := (textVisitor.walkAll ns []).reverse

end SceneMarkup
