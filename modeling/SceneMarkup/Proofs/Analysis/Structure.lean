import SceneMarkup.Analysis.Structure

/-!
# The structure of a scene, list by list

The way through a scene collects everything at once, with a counter for the depth.  Here each list of
its result is told on its own, by an order of the nodes and a rule for single nodes.  Depths are
distances from the roots; what the nodes say about their depths is not looked at.

## Main definitions

* `SceneNode.leveled` — the nodes of a tree in preorder with their distances from its root.
* `SceneNode.postorder` — the nodes of a tree, each behind the nodes inside it.
* `textAt?`, `listOf?`, `componentOf?`, `imageOf?` — what a single node adds to the lists.
* `flatAt` — the lists of a forest.

## Main results

* `map_snd_leveledAll`, `map_fst_leveledAll` — the preorder, and the depths that `assignAll` gives.
* `postorderAll_perm` — the two orders list the same nodes.
* `walkAll_collector` — the way through a forest appends its lists, and comes back to its depth.
* `analyze_eq` — **the structure of a scene.**
-/

namespace SceneMarkup

/-! ### Orders of nodes -/

namespace SceneNode

mutual

/-- The nodes of a tree in preorder, each with its depth, from the depth of the root. -/
def leveled (depth : Nat) : SceneNode → List (Nat × SceneNode)
  | .text i t => [(depth, .text i t)]
  | .shape i p => [(depth, .shape i p)]
  | .container i p cs => (depth, .container i p cs) :: leveledAll (depth + 1) cs

/-- The nodes of a forest in preorder, each with its depth, from the depth of the roots. -/
def leveledAll (depth : Nat) : List SceneNode → List (Nat × SceneNode)
  | [] => []
  | n :: ns => leveled depth n ++ leveledAll depth ns

end

mutual

/-- The nodes of a tree, each behind the nodes inside it. -/
def postorder : SceneNode → List SceneNode
  | .text i t => [.text i t]
  | .shape i p => [.shape i p]
  | .container i p cs => postorderAll cs ++ [.container i p cs]

/-- The nodes of a forest, each behind the nodes inside it. -/
def postorderAll : List SceneNode → List SceneNode
  | [] => []
  | n :: ns => postorder n ++ postorderAll ns

end

mutual

/-- Without the depths the nodes are those of the preorder. -/
theorem map_snd_leveled (depth : Nat) :
    ∀ n : SceneNode, (n.leveled depth).map Prod.snd = n.preorder
  | .text _ _ => rfl
  | .shape _ _ => rfl
  | .container _ _ cs => by
    simp only [leveled, preorder, List.map_cons, map_snd_leveledAll (depth + 1) cs]

theorem map_snd_leveledAll (depth : Nat) :
    ∀ ns : List SceneNode, (leveledAll depth ns).map Prod.snd = preorderAll ns
  | [] => rfl
  | n :: ns => by
    simp only [leveledAll, preorderAll, List.map_append, map_snd_leveled depth n,
      map_snd_leveledAll depth ns]

end

mutual

/-- The depths are those that `assignDepths` writes into the nodes. -/
theorem map_fst_leveled (depth : Nat) :
    ∀ n : SceneNode, (n.leveled depth).map Prod.fst =
      (n.assignDepths depth).preorder.map fun m => m.info.depth
  | .text _ _ => rfl
  | .shape _ _ => rfl
  | .container _ _ cs => by
    simp only [leveled, assignDepths, preorder, List.map_cons, info_container,
      map_fst_leveledAll (depth + 1) cs]

theorem map_fst_leveledAll (depth : Nat) :
    ∀ ns : List SceneNode, (leveledAll depth ns).map Prod.fst =
      (preorderAll (assignAll depth ns)).map fun m => m.info.depth
  | [] => rfl
  | n :: ns => by
    simp only [leveledAll, assignAll, preorderAll, List.map_append, map_fst_leveled depth n,
      map_fst_leveledAll depth ns]

end

mutual

/-- The two orders list the same nodes. -/
theorem postorder_perm : ∀ n : SceneNode, n.postorder.Perm n.preorder
  | .text _ _ => .refl _
  | .shape _ _ => .refl _
  | .container _ _ cs => by
    simp only [postorder, preorder]
    exact List.perm_append_singleton _ _ |>.trans ((postorderAll_perm cs).cons _)

theorem postorderAll_perm : ∀ ns : List SceneNode, (postorderAll ns).Perm (preorderAll ns)
  | [] => .refl _
  | n :: ns => by
    simp only [postorderAll, preorderAll]
    exact (postorder_perm n).append (postorderAll_perm ns)

end

end SceneNode

open SceneNode

/-! ### What single nodes add -/

/-- The entry for a node at a depth, if it is a text that is not empty. -/
def textAt? : Nat × SceneNode → Option TextElement
  | (depth, .text i t) =>
    if t.text = "" then none
    else
      some
        { text := t.text
          isTitle := isTitle i.name t.text t.fontSize
          fontSize := t.fontSize
          tag := if isTitle i.name t.text t.fontSize then "h" ++ Nat.repr (min (depth + 1) 6)
            else "p" }
  | _ => none

/-- The entry for a node, if it is a container of more than two nodes, all of the type of the
first. -/
def listOf? : SceneNode → Option ListStructure
  | .container i _ cs =>
    if 2 < cs.length ∧ ∀ first ∈ cs.head?, ∀ c ∈ cs, c.info.kind = first.info.kind then
      some ⟨i.name, cs.length, "ul/li"⟩
    else none
  | _ => none

/-- The name of a node and its component, if it is a container that is one. -/
def componentOf? : SceneNode → Option (String × Component)
  | .container i _ _ => (Component.ofName? i.name).map fun k => (i.name, k)
  | _ => none

/-- The entry for a node, if it stands for an image. -/
def imageOf? (n : SceneNode) : Option ImageElement :=
  if isImage n then some ⟨n.info.name, n.info.size, "figure/img"⟩ else none

/-- The buttons among components. -/
def buttonsOf (components : List (String × Component)) : List ButtonElement :=
  (components.filter fun c => c.2 = .buttons).map fun c => ⟨c.1, "button"⟩

theorem textAt?_text (depth : Nat) (i : NodeInfo) (t : Typography) :
    textAt? (depth, .text i t) = if t.text.isEmpty then none else some (textElement depth i t) := by
  by_cases h : t.text = ""
  · simp [textAt?, h]
  · have hne : t.text.isEmpty = false := by simpa using h
    simp only [textAt?, if_neg h, hne, Bool.false_eq_true, if_false, textElement, headingTag]

/-- The rule for lists, with the first of the nodes named. -/
theorem isRepeating_iff (cs : List SceneNode) :
    isRepeating cs = true ↔
      2 < cs.length ∧ ∀ first ∈ cs.head?, ∀ c ∈ cs, c.info.kind = first.info.kind := by
  cases cs with
  | nil => simp [isRepeating]
  | cons n ns => simp [isRepeating]

theorem listOf?_container (i : NodeInfo) (p : Paint) (cs : List SceneNode) :
    listOf? (.container i p cs) =
      if isRepeating cs then some ⟨i.name, cs.length, "ul/li"⟩ else none := by
  simp only [listOf?, isRepeating_iff]

/-! ### Lists in a row -/

namespace Analysis

/-- The entries of two analyses, list by list. -/
def append (a b : Analysis) : Analysis where
  regions := a.regions ++ b.regions
  components := a.components ++ b.components
  lists := a.lists ++ b.lists
  texts := a.texts ++ b.texts
  buttons := a.buttons ++ b.buttons
  images := a.images ++ b.images

theorem append_assoc (a b c : Analysis) : (a.append b).append c = a.append (b.append c) := by
  simp [append]

@[simp] theorem append_empty (a : Analysis) : a.append {} = a := by simp [append]

@[simp] theorem empty_append (a : Analysis) : ({} : Analysis).append a = a := by simp [append]

end Analysis

/-- The lists of a forest whose roots are at a depth.  Only the roots of the scene are regions. -/
def flatAt (depth : Nat) (ns : List SceneNode) : Analysis where
  regions := if depth = 0 then ns.map fun n => Region.ofName n.info.name else []
  components := ((preorderAll ns).filterMap componentOf?).map Prod.snd
  lists := (preorderAll ns).filterMap listOf?
  texts := (leveledAll depth ns).filterMap textAt?
  buttons := buttonsOf ((preorderAll ns).filterMap componentOf?)
  images := (postorderAll ns).filterMap imageOf?

@[simp] theorem flatAt_nil (depth : Nat) : flatAt depth [] = {} := by
  simp [flatAt, preorderAll, leveledAll, postorderAll, buttonsOf]

theorem flatAt_cons (depth : Nat) (n : SceneNode) (ns : List SceneNode) :
    flatAt depth (n :: ns) = (flatAt depth [n]).append (flatAt depth ns) := by
  simp only [flatAt, Analysis.append, preorderAll, leveledAll, postorderAll, List.append_nil,
    List.filterMap_append, List.map_append, List.filter_append, buttonsOf, List.map_cons,
    List.map_nil]
  split <;> rfl

theorem filterMap_cons_eq_append {α β : Type} (f : α → Option β) (x : α) (xs : List α) :
    (x :: xs).filterMap f = (f x).toList ++ xs.filterMap f := by
  cases h : f x with
  | none => simp [h]
  | some y => simp [h]

theorem flatAt_text (depth : Nat) (i : NodeInfo) (t : Typography) :
    flatAt depth [.text i t] =
      { regions := if depth = 0 then [Region.ofName i.name] else []
        texts := (textAt? (depth, .text i t)).toList
        images := (imageOf? (.text i t)).toList } := by
  simp [flatAt, preorderAll, preorder, leveledAll, leveled, postorderAll, postorder,
    filterMap_cons_eq_append, componentOf?, listOf?, buttonsOf]

theorem flatAt_shape (depth : Nat) (i : NodeInfo) (p : Paint) :
    flatAt depth [.shape i p] =
      { regions := if depth = 0 then [Region.ofName i.name] else []
        images := (imageOf? (.shape i p)).toList } := by
  simp [flatAt, preorderAll, preorder, leveledAll, leveled, postorderAll, postorder,
    filterMap_cons_eq_append, componentOf?, listOf?, textAt?, buttonsOf]

/-- A container goes before the nodes inside it, but for its image. -/
theorem flatAt_container (depth : Nat) (i : NodeInfo) (p : Paint) (cs : List SceneNode) :
    flatAt depth [.container i p cs] =
      (Analysis.append
        { regions := if depth = 0 then [Region.ofName i.name] else []
          lists := (listOf? (.container i p cs)).toList
          components := (componentOf? (.container i p cs)).toList.map Prod.snd
          buttons := buttonsOf (componentOf? (.container i p cs)).toList }
        (flatAt (depth + 1) cs)).append
        { images := (imageOf? (.container i p cs)).toList } := by
  simp [flatAt, Analysis.append, preorderAll, preorder, leveledAll, leveled, postorderAll,
    postorder, filterMap_cons_eq_append, textAt?, buttonsOf]

/-! ### The way through the scene -/

namespace Collected

theorem addRegion_eq (n : SceneNode) (depth : Nat) (a : Analysis) :
    addRegion n ⟨depth, a⟩ =
      ⟨depth, a.append { regions := if depth = 0 then [Region.ofName n.info.name] else [] }⟩ := by
  by_cases h : depth = 0
  · simp [addRegion, Analysis.append, h]
  · simp [addRegion, Analysis.append, h]

theorem addText_eq (i : NodeInfo) (t : Typography) (depth : Nat) (a : Analysis) :
    addText i t ⟨depth, a⟩ =
      ⟨depth, a.append { texts := (textAt? (depth, .text i t)).toList }⟩ := by
  rw [addText, textAt?_text]
  split
  · simp [Analysis.append]
  · simp [Analysis.append]

theorem addList_eq (i : NodeInfo) (p : Paint) (cs : List SceneNode) (a : Analysis) :
    addList i cs a = a.append { lists := (listOf? (.container i p cs)).toList } := by
  rw [addList, listOf?_container]
  split
  · simp [Analysis.append]
  · simp [Analysis.append]

theorem addComponent_eq (i : NodeInfo) (p : Paint) (cs : List SceneNode) (a : Analysis) :
    addComponent i a = a.append
      { components := (componentOf? (.container i p cs)).toList.map Prod.snd
        buttons := buttonsOf (componentOf? (.container i p cs)).toList } := by
  have hk : componentOf? (.container i p cs) =
      (Component.ofName? i.name).map fun k => (i.name, k) := rfl
  rw [addComponent, hk]
  cases Component.ofName? i.name with
  | none => simp [Analysis.append, buttonsOf]
  | some k => cases k <;> simp [Analysis.append, buttonsOf]

theorem enter_eq (i : NodeInfo) (p : Paint) (cs : List SceneNode) (depth : Nat) (a : Analysis) :
    enter i cs ⟨depth, a⟩ = ⟨depth + 1, a.append
      { lists := (listOf? (.container i p cs)).toList
        components := (componentOf? (.container i p cs)).toList.map Prod.snd
        buttons := buttonsOf (componentOf? (.container i p cs)).toList }⟩ := by
  rw [enter, addList_eq i p, addComponent_eq i p cs]
  simp [Analysis.append]

theorem addImage_eq (n : SceneNode) (depth : Nat) (a : Analysis) :
    addImage n ⟨depth, a⟩ = ⟨depth, a.append { images := (imageOf? n).toList }⟩ := by
  rw [addImage, imageOf?]
  split
  · simp [Analysis.append]
  · simp [Analysis.append]

end Collected

open Collected

theorem walk_collector_text (i : NodeInfo) (t : Typography) (c : Collected) :
    collector.walk (.text i t) c =
      addImage (.text i t) (addText i t (addRegion (.text i t) c)) := rfl

theorem walk_collector_shape (i : NodeInfo) (p : Paint) (c : Collected) :
    collector.walk (.shape i p) c = addImage (.shape i p) (addRegion (.shape i p) c) := rfl

theorem walk_collector_container (i : NodeInfo) (p : Paint) (cs : List SceneNode)
    (c : Collected) :
    collector.walk (.container i p cs) c =
      addImage (.container i p cs)
        (leave (collector.walkAll cs (enter i cs (addRegion (.container i p cs) c)))) := rfl

mutual

/-- The way through a tree appends its lists, and comes back to the depth where it started. -/
theorem walk_collector (depth : Nat) (a : Analysis) :
    ∀ n : SceneNode, collector.walk n ⟨depth, a⟩ = ⟨depth, a.append (flatAt depth [n])⟩
  | .text i t => by
    rw [walk_collector_text, addRegion_eq, addText_eq, addImage_eq, flatAt_text]
    simp [Analysis.append]
  | .shape i p => by
    rw [walk_collector_shape, addRegion_eq, addImage_eq, flatAt_shape]
    simp [Analysis.append]
  | .container i p cs => by
    -- the nodes inside start one level deeper, and the way comes back from there
    rw [walk_collector_container, addRegion_eq, enter_eq i p, walkAll_collector (depth + 1) _ cs,
      leave, Nat.add_sub_cancel, addImage_eq, flatAt_container]
    simp [Analysis.append]

/-- The way through a forest appends its lists, and comes back to the depth where it started. -/
theorem walkAll_collector (depth : Nat) (a : Analysis) :
    ∀ ns : List SceneNode, collector.walkAll ns ⟨depth, a⟩ = ⟨depth, a.append (flatAt depth ns)⟩
  | [] => by rw [Visitor.walkAll_nil, flatAt_nil, Analysis.append_empty]
  | n :: ns => by
    rw [Visitor.walkAll_cons, walk_collector depth a n, walkAll_collector depth _ ns,
      Analysis.append_assoc, ← flatAt_cons]

end

/-- **The structure of a scene.**  The regions are those of the roots, the components and the lists
those of the containers in preorder, the buttons the components of that kind; the texts are listed
in preorder with headings by their distance from the root, the images each behind the nodes inside
it. -/
theorem analyze_eq (roots : List SceneNode) :
    analyze roots =
      { regions := roots.map fun n => Region.ofName n.info.name
        components := ((preorderAll roots).filterMap componentOf?).map Prod.snd
        lists := (preorderAll roots).filterMap listOf?
        texts := (leveledAll 0 roots).filterMap textAt?
        buttons := buttonsOf ((preorderAll roots).filterMap componentOf?)
        images := (postorderAll roots).filterMap imageOf? } := by
  rw [analyze, walkAll_collector, Analysis.empty_append, flatAt]
  rfl

end SceneMarkup
