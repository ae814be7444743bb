import SceneMarkup.Proofs.Scene.Records
import SceneMarkup.Scene.Selection

/-!
# Canonical nodes

A record says less than a node: the type of a node is told by its name, the depth of a node by its
place, and whether it is a text, a shape or a container by its type and the nodes inside it.  A node
is canonical when all of this is what its record says about it.  The nodes of records are canonical,
and a canonical node is the node of its record.

## Main definitions

* `SceneNode.IsCanonical` — the nodes that their records say all about.
* `SceneNode.numbers` — the numbers that a node and the nodes inside it carry.
* `Selection.IsCanonical` — the selections of canonical nodes with finite numbers.

## Main results

* `NodeKind.ofName_name_ofName` — the type of a name is told by its own name.
* `NodeRecord.isCanonical_toNode` — the node of a record is canonical.
* **`SceneNode.toNode_toRecord`** — a canonical node is the node of its record.
-/

namespace SceneMarkup

/-! ### Types and their names -/

/-- The type of a name is told by its own name. -/
theorem NodeKind.ofName_name_ofName (name : String) :
    NodeKind.ofName (NodeKind.ofName name).name = NodeKind.ofName name := by
  cases hfind : NodeKind.known.find? fun entry => entry.1 == name with
  | none =>
    have hother : NodeKind.ofName name = .other name := by
      unfold NodeKind.ofName
      rw [hfind]
    rw [hother]
    exact hother
  | some entry =>
    have hkind : NodeKind.ofName name = entry.2 := by
      unfold NodeKind.ofName
      rw [hfind]
    have hknown : ∀ e ∈ NodeKind.known, NodeKind.ofName e.2.name = e.2 := by decide
    rw [hkind]
    exact hknown entry (List.mem_of_find?_eq_some hfind)

/-! ### Canonical nodes -/

/-- What a canonical node carries at a depth: its type is told by its name, and its depth is
right. -/
def NodeInfo.IsCanonical (depth : Nat) (i : NodeInfo) : Prop :=
  i.kind = NodeKind.ofName i.kind.name ∧ i.depth = depth

namespace SceneNode

mutual

/-- Canonical nodes at a depth: the texts are the nodes of the type of texts, the shapes are of no
type of containers, and a container is of such a type or has nodes inside it. -/
def IsCanonical (depth : Nat) : SceneNode → Prop
  | .text i _ => i.IsCanonical depth ∧ i.kind = .text
  | .shape i _ => i.IsCanonical depth ∧ i.kind ≠ .text ∧ i.kind.isContainer = false
  | .container i _ cs =>
    i.IsCanonical depth ∧ i.kind ≠ .text ∧ (i.kind.isContainer = true ∨ cs ≠ []) ∧
      AllCanonical (depth + 1) cs

/-- Forests of canonical nodes at a depth. -/
def AllCanonical (depth : Nat) : List SceneNode → Prop
  | [] => True
  | n :: ns => IsCanonical depth n ∧ AllCanonical depth ns

end

end SceneNode

/-! ### Numbers -/

/-- The numbers of a corner. -/
def Position.numbers (p : Position) : List Float := [p.x, p.y]

/-- The numbers of an extent. -/
def Size.numbers (s : Size) : List Float := [s.width, s.height]

/-- The numbers of a colour. -/
def Rgba.numbers (c : Rgba) : List Float := [c.r, c.g, c.b, c.a]

/-- The numbers that any node carries. -/
def NodeInfo.numbers (i : NodeInfo) : List Float :=
  i.position.elim [] Position.numbers ++ i.size.elim [] Size.numbers

/-- The numbers of a text. -/
def Typography.numbers (t : Typography) : List Float :=
  t.fontSize.toList ++ t.color.elim [] Rgba.numbers

/-- The numbers of the painting of a shape or container. -/
def Paint.numbers (p : Paint) : List Float :=
  p.background.elim [] Rgba.numbers ++ p.borderColor.elim [] Rgba.numbers ++
    p.borderWidth.toList ++ p.borderRadius.toList

namespace SceneNode

mutual

/-- The numbers that a node and the nodes inside it carry. -/
def numbers : SceneNode → List Float
  | .text i t => i.numbers ++ t.numbers
  | .shape i p => i.numbers ++ p.numbers
  | .container i p cs => i.numbers ++ p.numbers ++ numbersAll cs

/-- The numbers that the nodes of a forest carry. -/
def numbersAll : List SceneNode → List Float
  | [] => []
  | n :: ns => numbers n ++ numbersAll ns

end

end SceneNode

/-- The numbers in a selection. -/
def Selection.numbers (s : Selection) : List Float := SceneNode.numbersAll s.roots

/-- Canonical selections: their nodes are canonical and their numbers finite. -/
structure Selection.IsCanonical (s : Selection) : Prop where
  /-- The nodes are canonical. -/
  nodes : SceneNode.AllCanonical 0 s.roots
  /-- The numbers are finite. -/
  finite : ∀ x ∈ s.numbers, x.isFinite = true

/-! ### Nodes of records -/

namespace NodeRecord

theorem toNodes_ne_nil {depth : Nat} {rs : List NodeRecord} (h : rs ≠ []) :
    toNodes depth rs ≠ [] := by
  cases rs with
  | nil => exact absurd rfl h
  | cons r rs =>
    rw [toNodes]
    exact List.cons_ne_nil _ _

mutual

/-- The node of a record is canonical. -/
theorem isCanonical_toNode : ∀ (r : NodeRecord) (depth : Nat), (r.toNode depth).IsCanonical depth
  | .mk f cs, depth => by
    have hinfo : (f.info depth).IsCanonical depth :=
      ⟨(NodeKind.ofName_name_ofName f.type).symm, rfl⟩
    rw [toNode]
    by_cases htext : NodeKind.ofName f.type = .text
    · rw [if_pos htext]
      exact ⟨hinfo, htext⟩
    · rw [if_neg htext]
      by_cases hcont : ((NodeKind.ofName f.type).isContainer || !cs.isEmpty) = true
      · rw [if_pos hcont]
        refine ⟨hinfo, htext, ?_, allCanonical_toNodes cs (depth + 1)⟩
        rcases Bool.or_eq_true _ _ ▸ hcont with hkind | hcs
        · exact Or.inl hkind
        · right
          apply toNodes_ne_nil
          rintro rfl
          cases hcs
      · rw [if_neg hcont]
        refine ⟨hinfo, htext, ?_⟩
        have hor := Bool.eq_false_iff.2 hcont
        exact (Bool.or_eq_false_iff.1 hor).1

theorem allCanonical_toNodes : ∀ (rs : List NodeRecord) (depth : Nat),
    SceneNode.AllCanonical depth (toNodes depth rs)
  | [], _ => trivial
  | r :: rs, depth => ⟨isCanonical_toNode r depth, allCanonical_toNodes rs depth⟩

end

end NodeRecord

namespace SceneNode

/-! ### Records of nodes -/

/-- What a canonical node carries is what its record says. -/
theorem info_toFields {depth : Nat} {i : NodeInfo} (h : i.IsCanonical depth) :
    i.toFields.info depth = i := by
  obtain ⟨hkind, hdepth⟩ := h
  cases i
  simp only at hkind hdepth
  subst hdepth
  simp only [NodeInfo.toFields, NodeFields.info, Option.getD_some, ← hkind]

theorem kind_toFields {depth : Nat} {i : NodeInfo} (h : i.IsCanonical depth) :
    NodeKind.ofName i.toFields.type = i.kind := h.1.symm

mutual

/-- **Canonical nodes.**

A canonical node is the node of its record. -/
theorem toNode_toRecord : ∀ (n : SceneNode) (depth : Nat), n.IsCanonical depth →
    n.toRecord.toNode depth = n
  | .text i t, depth, ⟨hi, hkind⟩ => by
    have htype : NodeKind.ofName (t.toFields i.toFields).type = .text :=
      (kind_toFields hi).trans hkind
    have hinfo : (t.toFields i.toFields).info depth = i := info_toFields hi
    have htypography : (t.toFields i.toFields).typography = t := rfl
    rw [toRecord, NodeRecord.toNode, if_pos htype, hinfo, htypography]
  | .shape i p, depth, ⟨hi, htext, hkind⟩ => by
    have htype : NodeKind.ofName (p.toFields i.toFields).type = i.kind := kind_toFields hi
    have hinfo : (p.toFields i.toFields).info depth = i := info_toFields hi
    have hpaint : (p.toFields i.toFields).paint = p := rfl
    rw [toRecord, NodeRecord.toNode, htype, if_neg htext, hkind, hinfo, hpaint]
    rfl
  | .container i p cs, depth, ⟨hi, htext, hkind, hcs⟩ => by
    have htype : NodeKind.ofName (p.toFields i.toFields).type = i.kind := kind_toFields hi
    have hinfo : (p.toFields i.toFields).info depth = i := info_toFields hi
    have hpaint : (p.toFields i.toFields).paint = p := rfl
    -- a container of another type is told from a shape by the nodes inside it
    have hcont : (i.kind.isContainer || !(toRecords cs).isEmpty) = true := by
      rcases hkind with hkind | hne
      · rw [hkind, Bool.true_or]
      · cases cs with
        | nil => exact absurd rfl hne
        | cons c cs => rw [toRecords, List.isEmpty_cons, Bool.not_false, Bool.or_true]
    rw [toRecord, NodeRecord.toNode, htype, if_neg htext, if_pos hcont, hinfo, hpaint,
      toNodes_toRecords cs (depth + 1) hcs]

theorem toNodes_toRecords : ∀ (ns : List SceneNode) (depth : Nat), AllCanonical depth ns →
    NodeRecord.toNodes depth (toRecords ns) = ns
  | [], _, _ => rfl
  | n :: ns, depth, ⟨hn, hns⟩ => by
    rw [toRecords, NodeRecord.toNodes, toNode_toRecord n depth hn, toNodes_toRecords ns depth hns]

end

end SceneNode
end SceneMarkup
