import SceneMarkup.Analysis.Style
import SceneMarkup.Proofs.Duplicates

/-!
# The style of a scene, list by list

The way through a scene adds node after node to a style that grows.  Here the style is told from the
list of the nodes in preorder: each of its four lists is what the nodes use, one node behind the
other, and in the lists of colours and fonts only the first of equal entries is left.

## Main definitions

* `Style.hexes`, `Style.family?` — the colours and the font of a single node.
* `Style.ofList` — the style of some nodes in a row.

## Main results

* `add_ofList` — adding a node to a style is putting it behind the others.
* `foldl_add` — adding nodes in a row makes the style of all of them.
* `ofNodes_eq_flat` — **the style of a scene.**
-/

namespace SceneMarkup
namespace Style

open SceneNode

/-! ### What single nodes use -/

/-- The colours of a node as hexadecimal literals: that of its letters, or that of its background
and then that of its border. -/
def hexes : SceneNode → List String
  | .text _ t => t.color.toList.map hexOf
  | .shape _ p => (p.background.toList ++ p.borderColor.toList).map hexOf
  | .container _ p _ => (p.background.toList ++ p.borderColor.toList).map hexOf

/-- The family of the font of a text. -/
def family? : SceneNode → Option String
  | .text _ t => t.fontFamily
  | _ => none

/-- The style of some nodes in a row. -/
def ofList (ns : List SceneNode) : Style where
  colors := (ns.flatMap hexes).eraseDups
  fonts := (ns.filterMap family?).eraseDups
  sizes := ns.filterMap fun n => n.info.size
  positions := ns.filterMap fun n => n.info.position

/-! ### One more node -/

/-- A list without duplicates with one more string. -/
theorem addNew_eraseDups (ss : List String) (o : Option String) :
    addNew ss.eraseDups o = (ss ++ o.toList).eraseDups := by
  cases o with
  | none => simp [addNew]
  | some s =>
    -- the list that grows is searched, which has the same strings as all that came before
    have hmem : (ss.eraseDups.contains s = true) = (s ∈ ss) := by simp
    rw [addNew, Option.toList_some, eraseDups_concat]
    simp only [hmem]

theorem addSome_eq {α : Type} (as : List α) (o : Option α) : addSome as o = as ++ o.toList := by
  cases o with
  | none => exact (List.append_nil as).symm
  | some a => rfl

theorem filterMap_concat {α β : Type} (f : α → Option β) (as : List α) (a : α) :
    (as ++ [a]).filterMap f = as.filterMap f ++ (f a).toList := by
  rw [List.filterMap_append]
  cases h : f a with
  | none => simp [h]
  | some b => simp [h]

/-- Some optional colours in a row. -/
theorem foldl_addNew_eraseDups (cs : List (Option Rgba)) (ss : List String) :
    cs.foldl (fun ss c => addNew ss (c.map hexOf)) ss.eraseDups =
      (ss ++ cs.flatMap fun c => (c.map hexOf).toList).eraseDups := by
  -- the strings in front are general, for they grow with every colour
  induction cs generalizing ss with
  | nil => simp
  | cons c cs ih =>
    rw [List.foldl_cons, addNew_eraseDups, ih, List.flatMap_cons, List.append_assoc]

theorem flatMap_colorsOf (n : SceneNode) :
    (colorsOf n).flatMap (fun c => (c.map hexOf).toList) = hexes n := by
  cases n <;> simp [colorsOf, hexes, Option.toList_map]

theorem fontOf_eq (n : SceneNode) : fontOf n = family? n := by
  cases n <;> rfl

/-- Adding a node to a style is putting it behind the others. -/
theorem add_ofList (n : SceneNode) (ns : List SceneNode) : add n (ofList ns) = ofList (ns ++ [n]) := by
  have hcolors : (colorsOf n).foldl (fun ss c => addNew ss (c.map hexOf)) (ofList ns).colors =
      (ofList (ns ++ [n])).colors := by
    show (colorsOf n).foldl _ (ns.flatMap hexes).eraseDups = ((ns ++ [n]).flatMap hexes).eraseDups
    rw [foldl_addNew_eraseDups, flatMap_colorsOf, List.flatMap_append, List.flatMap_singleton]
  have hfonts : addNew (ofList ns).fonts (fontOf n) = (ofList (ns ++ [n])).fonts := by
    show addNew (ns.filterMap family?).eraseDups _ = ((ns ++ [n]).filterMap family?).eraseDups
    rw [addNew_eraseDups, fontOf_eq, filterMap_concat]
  have hsizes : addSome (ofList ns).sizes n.info.size = (ofList (ns ++ [n])).sizes := by
    rw [addSome_eq]
    exact (filterMap_concat (fun n => n.info.size) ns n).symm
  have hpositions : addSome (ofList ns).positions n.info.position =
      (ofList (ns ++ [n])).positions := by
    rw [addSome_eq]
    exact (filterMap_concat (fun n => n.info.position) ns n).symm
  rw [add, hcolors, hfonts, hsizes, hpositions]

/-! ### The way through the scene -/

/-- Adding nodes in a row makes the style of all of them. -/
theorem foldl_add (ns : List SceneNode) : ns.foldl (fun s n => add n s) {} = ofList ns := by
  -- from the end of the list, where `add` puts its node
  induction ns using List.reverseRecOn with
  | nil => rfl
  | append_singleton ns n ih => rw [List.foldl_append, ih, List.foldl_cons, List.foldl_nil, add_ofList]

theorem ofNodes_eq_ofList (roots : List SceneNode) : ofNodes roots = ofList (preorderAll roots) := by
  rw [ofNodes, visitor, Visitor.walkAll_atEvery, foldl_add]

/-- **The style of a scene.**  The colours are those of the nodes in preorder, of every node that of
its letters, or that of its background and then that of its border; the fonts are those of the texts.
Of equal hexadecimal literals, and of equal fonts, only the first is listed; sizes and positions are
all listed.  So further trees add the colours and the fonts that are new, in their own order. -/
theorem ofNodes_eq_flat (roots others : List SceneNode) :
    ofNodes roots =
        { colors := ((preorderAll roots).flatMap hexes).eraseDups
          fonts := ((preorderAll roots).filterMap family?).eraseDups
          sizes := (preorderAll roots).filterMap fun n => n.info.size
          positions := (preorderAll roots).filterMap fun n => n.info.position } ∧
      (ofNodes (roots ++ others)).colors =
        (ofNodes roots).colors ++
          (ofNodes others).colors.filter (fun c => c ∉ (ofNodes roots).colors) ∧
      (ofNodes (roots ++ others)).fonts =
        (ofNodes roots).fonts ++
          (ofNodes others).fonts.filter (fun f => f ∉ (ofNodes roots).fonts) := by
  simp only [ofNodes_eq_ofList, preorderAll_append]
  refine ⟨rfl, ?_, ?_⟩
  · rw [ofList, ofList, ofList, List.flatMap_append]
    exact eraseDups_append_eq _ _
  · rw [ofList, ofList, ofList, List.filterMap_append]
    exact eraseDups_append_eq _ _

/-- The channels are rounded before colours are compared, and opacities are not looked at. -/
example :
    (ofNodes
      [.shape { name := "bg", kind := .rectangle }
        { background := some ⟨255, 255, 255, 1⟩, borderColor := some ⟨59, 130, 246, 1⟩ },
       .text { name := "title", kind := .text } { color := some ⟨58.7, 130.2, 246, 0.5⟩ }]).colors =
      ["#ffffff", "#3b82f6"] := by
  decide +kernel

end Style
end SceneMarkup
