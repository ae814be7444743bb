import SceneMarkup.Proofs.Json.RoundTrip
import SceneMarkup.Proofs.Scene.Finite
import SceneMarkup.Scene.Document

/-!
# Selections that are written are read again

A selection is written as a JSON document, and reading the document gives the same selection: the
same name of the file, the same trees in the same order, and the same fields.  This needs nodes of
which a record says everything, as those of any selection that was read are, and numbers that are
read from their own texts.

## Main results

* `Selection.isCanonical_of_parse` — a selection that was read is canonical.
* `Selection.ofJson?_sorted` — the value of a canonical selection is read as this selection.
* **`Selection.parse_render`** — a selection that was written is read again.
-/

namespace SceneMarkup

open Json

/-! ### Selections that were read -/

theorem allFinite_of_lookup? {key : String} {ms : List (String × Json)} {v : Json}
    (hms : AllFiniteMembers ms) (h : lookup? key ms = some v) : AllFinite v := by
  induction ms with
  | nil => cases h
  | cons m ms ih =>
    obtain ⟨k, w⟩ := m
    obtain ⟨hw, hms'⟩ := allFiniteMembers_cons.1 hms
    unfold lookup? at h
    split at h
    next =>
      cases h
      exact hw
    next => exact ih hms' h

/-- The trees of some values are canonical, and their numbers are finite. -/
theorem canonical_of_rootsFrom {index : Nat} {vs : List Json} {ns : List SceneNode}
    (hvs : AllFinite (.array vs)) (h : rootsFrom index vs = .ok ns) :
    SceneNode.AllCanonical 0 ns ∧ AreFinite (SceneNode.numbersAll ns) := by
  induction vs generalizing index ns with
  | nil =>
    cases h
    exact ⟨trivial, areFinite_nil⟩
  | cons v vs ih =>
    obtain ⟨hv, hvs'⟩ := allFinite_array_cons.1 hvs
    unfold rootsFrom at h
    split at h
    next => cases h
    next r hr =>
      split at h
      next => cases h
      next ns' hns' =>
        cases h
        obtain ⟨hcanonical, hfinite⟩ := ih hvs' hns'
        have hrecord := NodeRecord.areFinite_of_decode v r hv hr
        exact ⟨⟨NodeRecord.isCanonical_toNode r 0, hcanonical⟩,
          areFinite_append.2 ⟨NodeRecord.areFinite_toNode r 0 hrecord, hfinite⟩⟩

namespace Selection

theorem isCanonical_of_ofItems {fileName : Option String} {vs : List Json} {s : Selection}
    (hvs : AllFinite (.array vs)) (h : ofItems fileName vs = .ok s) : s.IsCanonical := by
  unfold ofItems at h
  split at h
  next => cases h
  next roots hroots =>
    cases h
    obtain ⟨hcanonical, hfinite⟩ := canonical_of_rootsFrom hvs hroots
    exact ⟨hcanonical, hfinite⟩

theorem isCanonical_of_ofJson? {v : Json} {s : Selection} (hv : AllFinite v)
    (h : ofJson? v = .ok s) : s.IsCanonical := by
  have hnil : AllFinite (.array []) := by
    intro n hn
    cases hn
  unfold ofJson? at h
  split at h
  next => exact isCanonical_of_ofItems hnil h
  next => exact isCanonical_of_ofItems hv h
  next ms =>
    split at h
    next vs hvs => exact isCanonical_of_ofItems (allFinite_of_lookup? hv hvs) h
    next => exact isCanonical_of_ofItems hnil h
    next => cases h
    next => exact isCanonical_of_ofItems (allFinite_array_cons.2 ⟨hv, hnil⟩) h
  next => cases h

/-- **Selections that were read.**

The nodes of a selection that was read are canonical, and its numbers are finite. -/
theorem isCanonical_of_parse {text : List Char} {s : Selection} (h : parse text = .ok s) :
    s.IsCanonical := by
  unfold parse at h
  split at h
  next => cases h
  next v hv => exact isCanonical_of_ofJson? (allFinite_of_read hv) h

end Selection

/-! ### Reading the value of a selection -/

theorem rootsFrom_sorted (ns : List SceneNode) (index : Nat) :
    rootsFrom index (sortedItems (SceneNode.toJsons ns)) =
      .ok (NodeRecord.toNodes 0 (SceneNode.toRecords ns)) := by
  induction ns generalizing index with
  | nil => rfl
  | cons n ns ih =>
    rw [SceneNode.toJsons, sortedItems, SceneNode.toJson_eq, rootsFrom,
      NodeRecord.decode_sorted_toJson, ih]
    rfl

namespace Selection

theorem sorted_toJson_none (roots : List SceneNode) :
    (toJson ⟨none, roots⟩).sorted =
      .object [("selection", .array (sortedItems (SceneNode.toJsons roots)))] := rfl

theorem sorted_toJson_some (name : String) (roots : List SceneNode) :
    (toJson ⟨some name, roots⟩).sorted =
      .object [("figmaFile", .object [("name", .string name)]),
        ("selection", .array (sortedItems (SceneNode.toJsons roots)))] := rfl

/-- The value of a canonical selection is read as this selection. -/
theorem ofJson?_sorted {s : Selection} (hs : SceneNode.AllCanonical 0 s.roots) :
    ofJson? s.toJson.sorted = .ok s := by
  obtain ⟨fileName, roots⟩ := s
  have hroots : NodeRecord.toNodes 0 (SceneNode.toRecords roots) = roots :=
    SceneNode.toNodes_toRecords roots 0 hs
  have hitems : ∀ o, ofItems o (sortedItems (SceneNode.toJsons roots)) = .ok ⟨o, roots⟩ := by
    intro o
    unfold ofItems
    rw [rootsFrom_sorted, hroots]
  cases fileName with
  | none =>
    rw [sorted_toJson_none]
    exact hitems none
  | some name =>
    rw [sorted_toJson_some]
    exact hitems (some name)

end Selection

/-! ### The numbers of a document -/

theorem numbersOfMembers_append (ms ms' : List (String × Json)) :
    numbersOfMembers (ms ++ ms') = numbersOfMembers ms ++ numbersOfMembers ms' := by
  induction ms with
  | nil => rfl
  | cons m ms ih =>
    obtain ⟨k, v⟩ := m
    rw [List.cons_append, numbersOfMembers, numbersOfMembers, ih, List.append_assoc]

theorem numbersOfMembers_optionalMember {α : Type} (key : String) (f : α → Json)
    (numbers : α → List Float) (hf : ∀ a, (f a).numbers = (numbers a).map .real)
    (o : Option α) :
    numbersOfMembers (optionalMember key f o) = (o.elim [] numbers).map .real := by
  cases o with
  | none => rfl
  | some a =>
    show (f a).numbers ++ [] = (numbers a).map .real
    rw [List.append_nil, hf]

theorem numbersOfMembers_optionalFloat (key : String) (o : Option Float) :
    numbersOfMembers (optionalMember key .ofFloat o) = o.toList.map .real := by
  cases o <;> rfl

theorem numbersOfMembers_optionalString (key : String) (o : Option String) :
    numbersOfMembers (optionalMember key .string o) = [] := by
  cases o <;> rfl

/-- The members of what any node carries hold its depth and its numbers. -/
theorem numbersOfMembers_info (i : NodeInfo) :
    numbersOfMembers i.members = .integer i.depth :: i.numbers.map .real := by
  unfold NodeInfo.members NodeInfo.numbers
  rw [numbersOfMembers_append, numbersOfMembers_append,
    numbersOfMembers_optionalMember _ _ Position.numbers (fun _ => rfl),
    numbersOfMembers_optionalMember _ _ Size.numbers (fun _ => rfl), List.map_append]
  rfl

theorem numbersOfMembers_typography (t : Typography) :
    numbersOfMembers t.members = t.numbers.map .real := by
  unfold Typography.members Typography.numbers
  rw [numbersOfMembers, numbersOfMembers_append, numbersOfMembers_append, numbersOfMembers_append,
    numbersOfMembers_optionalFloat, numbersOfMembers_optionalString,
    numbersOfMembers_optionalString,
    numbersOfMembers_optionalMember _ _ Rgba.numbers (fun _ => rfl), List.map_append]
  simp only [Json.numbers, List.nil_append, List.append_nil]

theorem numbersOfMembers_paint (p : Paint) :
    numbersOfMembers p.members = p.numbers.map .real := by
  unfold Paint.members Paint.numbers
  rw [numbersOfMembers_append, numbersOfMembers_append, numbersOfMembers_append,
    numbersOfMembers_optionalMember _ _ Rgba.numbers (fun _ => rfl),
    numbersOfMembers_optionalMember _ _ Rgba.numbers (fun _ => rfl),
    numbersOfMembers_optionalFloat, numbersOfMembers_optionalFloat, List.map_append,
    List.map_append, List.map_append]

namespace SceneNode

variable {P : Json.Number → Prop}

theorem forall_info {i : NodeInfo} (hi : P (.integer i.depth))
    (hnumbers : ∀ x ∈ i.numbers, P (.real x)) : ∀ n ∈ numbersOfMembers i.members, P n := by
  rw [numbersOfMembers_info]
  exact List.forall_mem_cons.2 ⟨hi, List.forall_mem_map.2 hnumbers⟩

/-- The numbers of a record are those of its information, of its own members, and of its
children. -/
theorem forall_record {ms ms' : List (String × Json)} {items : List Json}
    (hms : ∀ n ∈ numbersOfMembers ms, P n) (hms' : ∀ n ∈ numbersOfMembers ms', P n)
    (hitems : ∀ n ∈ numbersOfItems items, P n) :
    ∀ n ∈ (Json.object (ms ++ ms' ++ [("children", .array items)])).numbers, P n := by
  have hchildren : numbersOfMembers [("children", .array items)] = numbersOfItems items :=
    List.append_nil _
  rw [Json.numbers, numbersOfMembers_append, numbersOfMembers_append, hchildren]
  exact List.forall_mem_append.2 ⟨List.forall_mem_append.2 ⟨hms, hms'⟩, hitems⟩

theorem forall_typography {t : Typography} (ht : ∀ x ∈ t.numbers, P (.real x)) :
    ∀ n ∈ numbersOfMembers t.members, P n := by
  rw [numbersOfMembers_typography]
  exact List.forall_mem_map.2 ht

theorem forall_paint {p : Paint} (hp : ∀ x ∈ p.numbers, P (.real x)) :
    ∀ n ∈ numbersOfMembers p.members, P n := by
  rw [numbersOfMembers_paint]
  exact List.forall_mem_map.2 hp

theorem forall_no_items : ∀ n ∈ numbersOfItems [], P n := by
  intro n hn
  cases hn

mutual

/-- The document of a tree holds the depths and the numbers of its nodes. -/
theorem forall_numbers_toJson : ∀ n : SceneNode, (∀ m ∈ n.preorder, P (.integer m.info.depth)) →
    (∀ x ∈ n.numbers, P (.real x)) → ∀ k ∈ n.toJson.numbers, P k
  | .text i t, hdepth, hx => by
    obtain ⟨hi, ht⟩ := List.forall_mem_append.1 hx
    have hroot : P (.integer i.depth) := hdepth _ (List.mem_singleton_self _)
    rw [toJson]
    exact forall_record (forall_info hroot hi) (forall_typography ht) forall_no_items
  | .shape i p, hdepth, hx => by
    obtain ⟨hi, hp⟩ := List.forall_mem_append.1 hx
    have hroot : P (.integer i.depth) := hdepth _ (List.mem_singleton_self _)
    rw [toJson]
    exact forall_record (forall_info hroot hi) (forall_paint hp) forall_no_items
  | .container i p cs, hdepth, hx => by
    obtain ⟨hip, hcs⟩ := List.forall_mem_append.1 hx
    obtain ⟨hi, hp⟩ := List.forall_mem_append.1 hip
    obtain ⟨hroot, hbelow⟩ := List.forall_mem_cons.1 hdepth
    rw [toJson]
    exact forall_record (forall_info hroot hi) (forall_paint hp)
      (forall_numbers_toJsons cs hbelow hcs)

theorem forall_numbers_toJsons : ∀ ns : List SceneNode,
    (∀ m ∈ preorderAll ns, P (.integer m.info.depth)) → (∀ x ∈ numbersAll ns, P (.real x)) →
    ∀ k ∈ numbersOfItems (toJsons ns), P k
  | [], _, _ => forall_no_items
  | n :: ns, hdepth, hx => by
    obtain ⟨hn, hns⟩ := List.forall_mem_append.1 hdepth
    obtain ⟨hxn, hxns⟩ := List.forall_mem_append.1 hx
    exact List.forall_mem_append.2
      ⟨forall_numbers_toJson n hn hxn, forall_numbers_toJsons ns hns hxns⟩

end

end SceneNode

/-! ### Round trips -/

namespace Selection

/-- The document of a selection holds the depths and the numbers of its nodes. -/
theorem forall_numbers_toJson {P : Json.Number → Prop} {s : Selection}
    (hdepth : ∀ n ∈ SceneNode.preorderAll s.roots, P (.integer n.info.depth))
    (hx : ∀ x ∈ s.numbers, P (.real x)) : ∀ k ∈ s.toJson.numbers, P k := by
  have hroots := SceneNode.forall_numbers_toJsons s.roots hdepth hx
  obtain ⟨fileName, roots⟩ := s
  have hnumbers : (toJson ⟨fileName, roots⟩).numbers =
      numbersOfItems (SceneNode.toJsons roots) := by
    cases fileName with
    | none => exact List.append_nil _
    | some name => exact List.append_nil _
  rw [hnumbers]
  exact hroots

/-- **Selections that are written are read again.**

Reading what was written of a selection gives this selection, for every canonical selection and so
for every selection that was read.  The depths are numbers of sixty-four bits, and each finite
number of the selection is read from its own text. -/
theorem parse_render {s : Selection} (hs : s.IsCanonical ∨ ∃ text, parse text = .ok s)
    (hdepth : ∀ n ∈ SceneNode.preorderAll s.roots, n.info.depth < 2 ^ 64)
    (hback : ∀ x ∈ s.numbers, x.isFinite = true → (Json.Number.real x).ReadsBack) :
    parse s.render = .ok s := by
  have hcanonical : s.IsCanonical := by
    rcases hs with hs | ⟨text, htext⟩
    · exact hs
    · exact isCanonical_of_parse htext
  -- the text is read as the value that was written, but for the order of the members
  have hread : read s.render = .ok s.toJson.sorted := by
    refine read_pretty s.toJson (forall_numbers_toJson ?_ ?_)
    · intro n hn
      exact readsBack_ofNat (hdepth n hn)
    · intro x hx
      exact hback x hx (hcanonical.finite x hx)
  unfold parse
  rw [hread]
  exact ofJson?_sorted hcanonical.nodes

/-- A header with a title and a logo, in a file with a name. -/
def landing : Selection where
  fileName := some "Landing"
  roots :=
    [.container
      { id := "1:1", name := "header-wrap", kind := .frame, size := some ⟨1200, 80.5⟩ }
      { background := some ⟨255, 255, 255, 1⟩ }
      [.text { id := "1:2", name := "Title", kind := .text, depth := 1 }
        { text := "Welcome", fontSize := some 32, fontFamily := some "Inter" },
       .shape { id := "1:3", name := "logo", kind := .rectangle, depth := 1 } {}]]

theorem parse_render_landing : parse landing.render = .ok landing := by
  have hnodes : SceneNode.AllCanonical 0 landing.roots := by
    refine ⟨⟨⟨rfl, rfl⟩, by decide, Or.inl rfl, ?_⟩, trivial⟩
    exact ⟨⟨⟨rfl, rfl⟩, rfl⟩, ⟨⟨rfl, rfl⟩, by decide, rfl⟩, trivial⟩
  have hnumbers : landing.numbers = [1200, 80.5, 255, 255, 255, 1, 32] := rfl
  have hfinite : ∀ x ∈ landing.numbers, x.isFinite = true := by
    rw [hnumbers]
    decide +kernel
  have hdepths : ∀ n ∈ SceneNode.preorderAll landing.roots, n.info.depth < 2 ^ 64 := by
    refine List.forall_mem_cons.2 ⟨by decide, List.forall_mem_cons.2 ⟨by decide, ?_⟩⟩
    exact List.forall_mem_singleton.2 (by decide)
  refine parse_render (Or.inl ⟨hnodes, hfinite⟩) hdepths ?_
  intro x hx _
  rw [hnumbers] at hx
  simp only [List.mem_cons, List.not_mem_nil, or_false] at hx
  rcases hx with rfl | rfl | rfl | rfl | rfl | rfl | rfl
  all_goals rfl

end Selection
end SceneMarkup
