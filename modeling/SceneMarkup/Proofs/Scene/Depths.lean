import SceneMarkup.Proofs.Scene.RoundTrip

/-!
# Depths are distances

The depth of a node is its distance from the root of its tree, in every selection: those built of
trees have their depths counted anew, and those read from a document have them counted on the way.
Counting anew touches nothing but the depths, and finds nothing to do where they are right.

## Main definitions

* `SceneNode.IsBelow` — the nodes so many steps below the roots of a forest.
* `SceneNode.HasTrueDepths` — the forests whose nodes tell how far below the roots they are.
* `SceneNode.withoutDepths` — a tree with all depths at zero, which says all about it but the depths.

## Main results

* `SceneNode.hasTrueDepths_assignAll`, `SceneNode.withoutDepthsAll_assignAll` — what counting anew makes,
  and what it leaves as it is.
* `SceneNode.assignAll_eq_self_iff` — it finds nothing to do if and only if the depths are right.
* **`Selection.depths_are_distances`** — both ways to a selection.
-/

namespace SceneMarkup
namespace SceneNode

/-! ### Distances -/

/-- The nodes so many steps below the roots of a forest. -/
inductive IsBelow (roots : List SceneNode) : Nat → SceneNode → Prop
  /-- A root is no step below the roots. -/
  | root {n : SceneNode} (h : n ∈ roots) : IsBelow roots 0 n
  /-- A node is one step below the node it is inside of. -/
  | child {k : Nat} {n c : SceneNode} (h : IsBelow roots k n) (hc : c ∈ n.children) :
      IsBelow roots (k + 1) c

/-- The depth of every node is its distance from the roots. -/
def HasTrueDepths (roots : List SceneNode) : Prop := ∀ k n, IsBelow roots k n → n.info.depth = k

theorem IsBelow.mono {ms ns : List SceneNode} (hsub : ms ⊆ ns) {k : Nat} {n : SceneNode}
    (h : IsBelow ms k n) : IsBelow ns k n := by
  induction h with
  | root h => exact .root (hsub h)
  | child _ hc ih => exact .child ih hc

/-- The nodes below those inside a root are one step deeper below the roots. -/
theorem IsBelow.inside {roots : List SceneNode} {r : SceneNode} (hr : r ∈ roots) {k : Nat}
    {n : SceneNode} (h : IsBelow r.children k n) : IsBelow roots (k + 1) n := by
  induction h with
  | root h => exact .child (.root hr) h
  | child _ hc ih => exact .child ih hc

/-! ### Counting anew -/

theorem assignAll_eq_map (depth : Nat) (ns : List SceneNode) :
    assignAll depth ns = ns.map (assignDepths depth) := by
  induction ns with
  | nil => rfl
  | cons n ns ih => rw [assignAll, List.map_cons, ih]

@[simp] theorem info_assignDepths (depth : Nat) (n : SceneNode) :
    (n.assignDepths depth).info = { n.info with depth := depth } := by
  cases n <;> rfl

@[simp] theorem children_assignDepths (depth : Nat) (n : SceneNode) :
    (n.assignDepths depth).children = assignAll (depth + 1) n.children := by
  cases n <;> rfl

/-- The nodes below the roots have the depths of their levels. -/
theorem IsBelow.exists_assignDepths {depth k : Nat} {ns : List SceneNode} {m : SceneNode}
    (h : IsBelow (assignAll depth ns) k m) : ∃ n : SceneNode, m = n.assignDepths (depth + k) := by
  -- from the roots down: the nodes inside a node were counted from one more than its depth
  induction h with
  | root h =>
    rw [assignAll_eq_map] at h
    obtain ⟨n, -, rfl⟩ := List.mem_map.1 h
    exact ⟨n, rfl⟩
  | child _ hc ih =>
    obtain ⟨n, rfl⟩ := ih
    rw [children_assignDepths, assignAll_eq_map] at hc
    obtain ⟨c, -, rfl⟩ := List.mem_map.1 hc
    exact ⟨c, rfl⟩

/-- Counting anew makes every depth the distance from the roots. -/
theorem hasTrueDepths_assignAll (ns : List SceneNode) : HasTrueDepths (assignAll 0 ns) := by
  intro k m h
  obtain ⟨n, rfl⟩ := h.exists_assignDepths
  rw [info_assignDepths]
  exact Nat.zero_add k

mutual

/-- A tree with right depths is kept. -/
theorem assignDepths_eq_self : ∀ (n : SceneNode) (depth : Nat),
    (∀ k m, IsBelow [n] k m → m.info.depth = depth + k) → n.assignDepths depth = n
  | .text i t, depth, h => by
    have hroot : i.depth = depth := h 0 _ (.root (List.mem_singleton_self _))
    subst hroot
    rfl
  | .shape i p, depth, h => by
    have hroot : i.depth = depth := h 0 _ (.root (List.mem_singleton_self _))
    subst hroot
    rfl
  | .container i p cs, depth, h => by
    have hroot : i.depth = depth := h 0 _ (.root (List.mem_singleton_self _))
    -- the nodes inside are one step further from the root than from their container
    have hcs : assignAll (depth + 1) cs = cs := by
      refine assignAll_eq_self cs (depth + 1) ?_
      intro k m hm
      have hm' := h (k + 1) m (.inside (List.mem_singleton_self _) hm)
      omega
    rw [assignDepths, hcs]
    subst hroot
    rfl

theorem assignAll_eq_self : ∀ (ns : List SceneNode) (depth : Nat),
    (∀ k m, IsBelow ns k m → m.info.depth = depth + k) → assignAll depth ns = ns
  | [], _, _ => rfl
  | n :: ns, depth, h => by
    have hn : ∀ k m, IsBelow [n] k m → m.info.depth = depth + k := by
      intro k m hm
      exact h k m (hm.mono (List.cons_subset_cons n (List.nil_subset ns)))
    have hns : ∀ k m, IsBelow ns k m → m.info.depth = depth + k := by
      intro k m hm
      exact h k m (hm.mono (List.subset_cons_self n ns))
    rw [assignAll, assignDepths_eq_self n depth hn, assignAll_eq_self ns depth hns]

end

/-- Counting anew finds nothing to do if and only if every depth is the distance from the roots. -/
theorem assignAll_eq_self_iff (ns : List SceneNode) : assignAll 0 ns = ns ↔ HasTrueDepths ns := by
  constructor
  · intro h
    rw [← h]
    exact hasTrueDepths_assignAll ns
  · intro h
    refine assignAll_eq_self ns 0 ?_
    intro k m hm
    rw [h k m hm, Nat.zero_add]

/-! ### What is left as it is -/

mutual

/-- A tree with all depths at zero. -/
def withoutDepths : SceneNode → SceneNode
  | .text i t => .text { i with depth := 0 } t
  | .shape i p => .shape { i with depth := 0 } p
  | .container i p cs => .container { i with depth := 0 } p (withoutDepthsAll cs)

/-- Trees with all depths at zero. -/
def withoutDepthsAll : List SceneNode → List SceneNode
  | [] => []
  | n :: ns => withoutDepths n :: withoutDepthsAll ns

end

mutual

/-- Counting anew touches nothing but the depths. -/
theorem withoutDepths_assignDepths (depth : Nat) :
    ∀ n : SceneNode, (n.assignDepths depth).withoutDepths = n.withoutDepths
  | .text _ _ => rfl
  | .shape _ _ => rfl
  | .container _ _ cs => by
    rw [assignDepths, withoutDepths, withoutDepths, withoutDepthsAll_assignAll (depth + 1) cs]

theorem withoutDepthsAll_assignAll (depth : Nat) :
    ∀ ns : List SceneNode, withoutDepthsAll (assignAll depth ns) = withoutDepthsAll ns
  | [] => rfl
  | n :: ns => by
    rw [assignAll, withoutDepthsAll, withoutDepthsAll, withoutDepths_assignDepths depth n,
      withoutDepthsAll_assignAll depth ns]

end

/-! ### Canonical nodes -/

theorem allCanonical_iff {depth : Nat} {ns : List SceneNode} :
    AllCanonical depth ns ↔ ∀ n ∈ ns, n.IsCanonical depth := by
  induction ns with
  | nil => simp [AllCanonical]
  | cons n ns ih => simp [AllCanonical, ih]

theorem IsCanonical.depth_eq {depth : Nat} {n : SceneNode} (h : n.IsCanonical depth) :
    n.info.depth = depth := by
  cases n with
  | text i t => exact h.1.2
  | shape i p => exact h.1.2
  | container i p cs => exact h.1.2

theorem IsCanonical.children {depth : Nat} {n : SceneNode} (h : n.IsCanonical depth) :
    ∀ c ∈ n.children, c.IsCanonical (depth + 1) := by
  cases n with
  | text i t => simp [SceneNode.children]
  | shape i p => simp [SceneNode.children]
  | container i p cs => exact allCanonical_iff.1 h.2.2.2

/-- The nodes below canonical roots are canonical at the depths of their levels. -/
theorem IsBelow.isCanonical {roots : List SceneNode} (hroots : AllCanonical 0 roots) {k : Nat}
    {n : SceneNode} (h : IsBelow roots k n) : n.IsCanonical k := by
  induction h with
  | root h => exact allCanonical_iff.1 hroots _ h
  | child _ hc ih => exact ih.children _ hc

end SceneNode

open SceneNode

namespace Selection

/-- The depths of a selection that was read are distances, whatever the document says. -/
theorem hasTrueDepths_of_parse {text : List Char} {s : Selection} (h : parse text = .ok s) :
    HasTrueDepths s.roots := by
  intro k n hn
  exact (hn.isCanonical (isCanonical_of_parse h).nodes).depth_eq

/-- **Depths are distances.**  In a selection built of trees every depth is the distance of the node
from its root, whatever the depths were, and nothing else is changed: with all depths at zero the
trees are the same, and there are as many nodes.  In a selection that was read every depth is the
distance, too, whatever the document says; so building a selection of its trees changes nothing. -/
theorem depths_are_distances (roots : List SceneNode) :
    HasTrueDepths (ofRoots roots).roots ∧
      withoutDepthsAll (ofRoots roots).roots = withoutDepthsAll roots ∧
      (ofRoots roots).nodeCount = countAll roots ∧
      ∀ text s, parse text = .ok s →
        HasTrueDepths s.roots ∧ (ofRoots s.roots).roots = s.roots := by
  refine ⟨hasTrueDepths_assignAll roots, withoutDepthsAll_assignAll 0 roots,
    countAll_assignAll 0 roots, ?_⟩
  intro text s h
  have hdepths := hasTrueDepths_of_parse h
  exact ⟨hdepths, (assignAll_eq_self_iff s.roots).2 hdepths⟩

/-- A frame that states the depth of another level, with a text that states its own. -/
theorem depths_are_distances_misstated :
    let document :=
      "[\x7b\"type\": \"FRAME\", \"depth\": 7, \"children\": [" ++
        "\x7b\"type\": \"TEXT\", \"depth\": 1\x7d, \x7b\"type\": \"LINE\"\x7d]\x7d]"
    ∃ s, parse document.toList = .ok s ∧
      (preorderAll s.roots).map (fun n => n.info.depth) = [0, 1, 1] ∧
      HasTrueDepths s.roots ∧ (ofRoots s.roots).roots = s.roots := by
  intro document
  -- only the list of depths is computed; that they are distances is the theorem
  have hlist : (parse document.toList).toOption.map (fun s =>
      (preorderAll s.roots).map fun n => n.info.depth) = some [0, 1, 1] := by
    decide +kernel
  cases h : parse document.toList with
  | error e =>
    rw [h] at hlist
    cases hlist
  | ok s =>
    rw [h] at hlist
    obtain ⟨-, -, -, hread⟩ := depths_are_distances s.roots
    exact ⟨s, rfl, Option.some.inj hlist, hread document.toList s h⟩

end Selection
end SceneMarkup
