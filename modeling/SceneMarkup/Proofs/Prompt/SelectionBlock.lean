import SceneMarkup.Proofs.Json.Characters
import SceneMarkup.Proofs.Json.RoundTrip
import SceneMarkup.Prompt.Request

/-!
# The selection in a prompt

A prompt ends with the selection between two marks.  The opening mark ends in a line break, and may
occur in the request, among the classes, in the markup and even in the names and texts of the
selection; but inside the document of a selection it is never followed by a line break, for there
line breaks stand behind brackets, commas and values alone.  So the last opening mark of a prompt is
that of its selection.

## Main definitions

* `openMark`, `closeMark` — the marks.
* `EndsInBlock` — the texts that end in a content between the marks.
* `IsUnmarked` — the texts without an opening mark.

## Main results

* `isUnmarked_string`, `isUnmarked_prettyAt` — no opening mark starts inside a string, or inside any
  JSON value.
* `endsInBlock_iff` — which content a text ends in.
* `endsInBlock_prompts_iff` — **the selection is found in every prompt.**
-/

namespace SceneMarkup
namespace Prompt

open Json

/-- The mark in front of a selection. -/
def openMark : List Char := "[SELECTION_JSON]\n".toList

/-- The mark behind a selection. -/
def closeMark : List Char := "\n[/SELECTION_JSON]".toList

theorem openMark_eq : openMark = '[' :: "SELECTION_JSON]\n".toList := rfl

theorem closeMark_eq : closeMark = '\n' :: '[' :: '/' :: "SELECTION_JSON]".toList := rfl

/-- A text ends in a content between the marks: the content stands behind the last opening mark of
the text, and reaches to the closing mark at its end. -/
def EndsInBlock (text content : List Char) : Prop :=
  ∃ front, text = front ++ openMark ++ content ++ closeMark ∧
    ∀ u r, text = u ++ openMark ++ r → u.length ≤ front.length

/-! ### Texts without an opening mark -/

/-- The opening mark does not occur in a text. -/
def IsUnmarked (t : List Char) : Prop := ¬openMark <:+: t

variable {t : List Char}

theorem isUnmarked_nil : IsUnmarked [] := by
  intro hmark
  rw [List.infix_nil, openMark_eq] at hmark
  cases hmark

/-- The mark starts with a bracket. -/
theorem isUnmarked_cons {c : Char} (hc : c ≠ '[') (h : IsUnmarked t) : IsUnmarked (c :: t) := by
  intro hmark
  rcases List.infix_cons_iff.1 hmark with hstart | hrest
  · rw [openMark_eq] at hstart
    exact hc (List.cons_prefix_cons.1 hstart).1.symm
  · exact h hrest

/-- The bracket of the mark has a letter behind it. -/
theorem isUnmarked_bracket (ht : t.head? ≠ some 'S') (h : IsUnmarked t) :
    IsUnmarked ('[' :: t) := by
  intro hmark
  rcases List.infix_cons_iff.1 hmark with hstart | hrest
  · rw [openMark_eq] at hstart
    obtain ⟨r, rfl⟩ := (List.cons_prefix_cons.1 hstart).2
    exact ht rfl
  · exact h hrest

theorem isUnmarked_append {s : List Char} (hs : '[' ∉ s) (h : IsUnmarked t) :
    IsUnmarked (s ++ t) := by
  induction s with
  | nil => exact h
  | cons c s ih =>
    obtain ⟨hc, hs⟩ := not_or.1 (mt List.mem_cons.2 hs)
    exact isUnmarked_cons (Ne.symm hc) (ih hs)

/-- The mark has a line break and no quotes, so it cannot start on a line that a quote ends. -/
theorem isUnmarked_line {s : List Char} (hs : '\n' ∉ s) (h : IsUnmarked t) :
    IsUnmarked (s ++ '"' :: t) := by
  induction s with
  | nil => exact isUnmarked_cons (by decide) h
  | cons c s ih =>
    have hline : '\n' ∉ c :: s ++ ['"'] := by
      simpa using hs
    intro hmark
    rcases List.infix_cons_iff.1 hmark with hstart | hrest
    · -- either the line reaches behind the mark, or the mark reaches behind the quote
      have hquote : c :: s ++ ['"'] <+: c :: s ++ '"' :: t := ⟨t, by simp⟩
      rcases List.prefix_or_prefix_of_prefix hstart hquote with hin | hout
      · have hbreak : '\n' ∈ openMark := by decide
        exact hline (hin.subset hbreak)
      · have hnone : '"' ∉ openMark := by decide
        exact hnone (hout.subset (List.mem_append_right _ (List.mem_singleton_self '"')))
    · exact ih (fun h => hs (List.mem_cons_of_mem c h)) hrest

/-- No mark starts inside a string. -/
theorem isUnmarked_string (s : String) (h : IsUnmarked t) : IsUnmarked (stringText s ++ t) := by
  -- the line goes up to the quote that ends the string
  have hline : '\n' ∉ '"' :: s.toList.flatMap escaped := by
    intro hmem
    exact newline_not_mem_stringText s (List.mem_append_left _ hmem)
  rw [stringText, List.append_assoc]
  exact isUnmarked_line hline h

theorem isUnmarked_newline (level : Nat) (h : IsUnmarked t) : IsUnmarked (newline level ++ t) := by
  refine isUnmarked_append ?_ h
  simp [newline]

theorem isUnmarked_number (n : Number) (h : IsUnmarked t) : IsUnmarked (numberText n ++ t) := by
  refine isUnmarked_append ?_ h
  intro hmem
  exact absurd (isNumberChar_of_mem_numberText n '[' hmem) (by decide)

/-! ### JSON texts -/

mutual

/-- No mark starts inside a value. -/
theorem isUnmarked_prettyAt : ∀ (v : Json) (level : Nat) {r : List Char}, IsUnmarked r →
    IsUnmarked (prettyAt level v ++ r)
  | .null, _, _, h => isUnmarked_append (s := "null".toList) (by decide) h
  | .bool true, _, _, h => isUnmarked_append (s := "true".toList) (by decide) h
  | .bool false, _, _, h => isUnmarked_append (s := "false".toList) (by decide) h
  | .number n, _, _, h => isUnmarked_number n h
  | .string s, _, _, h => isUnmarked_string s h
  | .array [], _, r, h => by
    have hhead : (']' :: r).head? ≠ some 'S' := by simp
    exact isUnmarked_bracket hhead (isUnmarked_cons (by decide) h)
  | .array (v :: vs), level, r, h => by
    -- the bracket that opens an array has a line break behind it
    rw [prettyAt_array_append]
    refine isUnmarked_bracket (by simp [newline]) (isUnmarked_newline _ ?_)
    refine isUnmarked_prettyAt v (level + 1) (isUnmarked_prettyItems vs (level + 1) ?_)
    exact isUnmarked_newline level (isUnmarked_cons (by decide) h)
  | .object [], _, _, h => isUnmarked_cons (by decide) (isUnmarked_cons (by decide) h)
  | .object ((k, v) :: ms), level, r, h => by
    rw [prettyAt_object_append]
    refine isUnmarked_cons (by decide) (isUnmarked_newline _ (isUnmarked_string k ?_))
    refine isUnmarked_cons (by decide) (isUnmarked_cons (by decide) ?_)
    refine isUnmarked_prettyAt v (level + 1) (isUnmarked_prettyMembers ms (level + 1) ?_)
    exact isUnmarked_newline level (isUnmarked_cons (by decide) h)

theorem isUnmarked_prettyItems : ∀ (vs : List Json) (level : Nat) {r : List Char}, IsUnmarked r →
    IsUnmarked (prettyItems level vs ++ r)
  | [], _, _, h => h
  | v :: vs, level, r, h => by
    rw [prettyItems_append]
    refine isUnmarked_cons (by decide) (isUnmarked_newline level ?_)
    exact isUnmarked_prettyAt v level (isUnmarked_prettyItems vs level h)

theorem isUnmarked_prettyMembers : ∀ (ms : List (String × Json)) (level : Nat) {r : List Char},
    IsUnmarked r → IsUnmarked (prettyMembers level ms ++ r)
  | [], _, _, h => h
  | (k, v) :: ms, level, r, h => by
    rw [prettyMembers_append]
    refine isUnmarked_cons (by decide) (isUnmarked_newline level (isUnmarked_string k ?_))
    refine isUnmarked_cons (by decide) (isUnmarked_cons (by decide) ?_)
    exact isUnmarked_prettyAt v level (isUnmarked_prettyMembers ms level h)

end

/-- The document of a selection has no opening mark, and makes none with the closing mark. -/
theorem isUnmarked_render (s : Selection) : IsUnmarked (s.render ++ closeMark) := by
  have hclose : IsUnmarked closeMark := by
    have hname : IsUnmarked ("SELECTION_JSON]".toList ++ []) :=
      isUnmarked_append (by decide) isUnmarked_nil
    rw [List.append_nil] at hname
    -- a slash stands where the opening mark has a letter
    have hslash : ('/' :: "SELECTION_JSON]".toList).head? ≠ some 'S' := by
      simp only [List.head?_cons, ne_eq, Option.some.injEq]
      decide
    rw [closeMark_eq]
    exact isUnmarked_cons (by decide) (isUnmarked_bracket hslash (isUnmarked_cons (by decide) hname))
  exact isUnmarked_prettyAt s.toJson 0 hclose

/-! ### The last opening mark -/

/-- In front of a text without an opening mark, a mark is the last one. -/
theorem length_le_of_isUnmarked {front u r : List Char} (ht : IsUnmarked t)
    (h : front ++ openMark ++ t = u ++ openMark ++ r) : u.length ≤ front.length := by
  by_contra hlt
  -- behind the bracket of the mark in front, nothing can be the start of the other one
  have htail : IsUnmarked ("SELECTION_JSON]\n".toList ++ t) := isUnmarked_append (by decide) ht
  refine htail ⟨u.drop (front.length + 1), r, ?_⟩
  have hdrop := congrArg (List.drop (front.length + 1)) h
  rw [List.append_assoc, List.append_assoc, List.drop_append_of_le_length (by omega : _ ≤ u.length),
    ← List.drop_drop, List.drop_left] at hdrop
  rw [List.append_assoc]
  exact hdrop.symm

/-- A text that was put together from a content without an opening mark, and anything in front of
it, ends in this content and in no other one. -/
theorem endsInBlock_iff {front content content' : List Char}
    (h : IsUnmarked (content ++ closeMark)) :
    EndsInBlock (front ++ openMark ++ content ++ closeMark) content' ↔ content' = content := by
  constructor
  · rintro ⟨front', htext, hlast⟩
    have hle : front'.length ≤ front.length := by
      refine length_le_of_isUnmarked (r := content' ++ closeMark) h ?_
      rw [← List.append_assoc, htext, ← List.append_assoc]
    have hge : front.length ≤ front'.length :=
      hlast front (content ++ closeMark) (List.append_assoc _ _ _)
    -- both marks stand at one place, so the same is behind them
    rw [List.append_assoc, List.append_assoc, List.append_assoc, List.append_assoc] at htext
    obtain ⟨-, hbehind⟩ := List.append_inj htext (Nat.le_antisymm hge hle)
    exact (List.append_cancel_right (List.append_cancel_left hbehind)).symm
  · rintro rfl
    refine ⟨front, rfl, ?_⟩
    intro u r hu
    refine length_le_of_isUnmarked (r := r) h ?_
    rw [← List.append_assoc, hu]

/-! ### Prompts -/

theorem toList_selectionBlock (s : Selection) :
    (selectionBlock s).toList = openMark ++ s.render ++ closeMark := by
  -- for any two marks, so that the literals are not spelt out
  have happend : ∀ (a b : String) (l : List Char),
      (a ++ String.ofList l ++ b).toList = a.toList ++ l ++ b.toList := by
    intro a b l
    rw [String.toList_append, String.toList_append, String.toList_ofList]
  exact happend _ _ s.render

/-- Whatever stands in front of the block of a selection, the text ends in this selection. -/
theorem endsInBlock_append_iff (front : String) (s : Selection) (content : List Char) :
    EndsInBlock (front ++ selectionBlock s).toList content ↔ content = s.render := by
  have htext : (front ++ selectionBlock s).toList =
      front.toList ++ openMark ++ s.render ++ closeMark := by
    rw [String.toList_append, toList_selectionBlock]
    simp only [List.append_assoc]
  rw [htext]
  exact endsInBlock_iff (isUnmarked_render s)

/-- **The selection is found in every prompt.**  Whatever the request, the classes and the markup
are, each of the four prompts ends with the closing mark, and what stands between the last opening
mark and that is the document of the selection, and nothing else. -/
theorem endsInBlock_prompts_iff (s : Selection) (user : String) (classes : List String)
    (markup content : List Char) :
    (EndsInBlock (markupPrompt s user).toList content ↔ content = s.render) ∧
      (EndsInBlock (classedMarkupPrompt s user classes).toList content ↔ content = s.render) ∧
      (EndsInBlock (stylesheetPrompt s user).toList content ↔ content = s.render) ∧
      (EndsInBlock (markupStylePrompt markup s user).toList content ↔ content = s.render) :=
  ⟨endsInBlock_append_iff _ s content, endsInBlock_append_iff _ s content,
    endsInBlock_append_iff _ s content, endsInBlock_append_iff _ s content⟩

end Prompt
end SceneMarkup
