import SceneMarkup.Proofs.Markup.Rerun
import SceneMarkup.Proofs.Markup.RewrittenTags

/-!
# Types of buttons

The type goes in behind the opening word of a button, so the scanner of attributes finds it before
it reads any of the attributes that follow, however they are quoted.  No button is lost by it and
none is made: the buttons of the rewritten text are those of the text, one to one.

## Main definitions

* `typeText` — the type that the rule inserts.
* `typedPiece` — a piece of a text as the rule leaves it.
* `typeCuts` — a text cut where types are missing.

## Main results

* `hasType_typeText` — the inserted type is found, whatever follows it.
* `pieces_typedButtons` — **the buttons of a rewritten text are those of the text.**
* `joinWith_typeCuts` — the rewritten text is the text with types where they were missing.
* `typedButtons_inserts_types` — **types are inserted where buttons lack them, and nothing else is
  done.**
-/

namespace SceneMarkup
namespace Markup

open Text

/-! ### The inserted type -/

/-- The type that the rule inserts. -/
def typeText : List Char := " type=\"button\"".toList

theorem typeText_eq : typeText = ' ' :: quotedText "type".toList [] [] "button".toList := by
  decide

/-- Behind the inserted type the scanner finds it first, whatever follows. -/
theorem hasType_typeText (attrs : List Char) : hasType (typeText ++ attrs) = true := by
  have htype : ∀ c ∈ "type".toList, isNameChar c = true := forall_mem_of_all (by decide)
  have hpieces := pieces_quotedText (v := "button".toList) (by decide) htype (by decide) attrs
  rw [hasType, findAttribute?, attributes, occurrences, typeText_eq, List.cons_append,
    pieces_cons_of_none (attribute?_cons_eq_none_iff.2 not_isNameChar_space), hpieces, placed,
    placed, List.find?_cons_of_pos]
  · rfl
  · exact sameAscii_self _

theorem buttonOpening_eq : "<button".toList = '<' :: "button".toList := by
  decide

theorem typedButton_eq_append (attrs : List Char) :
    typedButton attrs = "<button".toList ++ (typeText ++ attrs ++ ['>']) := by
  rw [typedButton_eq, typeText_eq, buttonOpening_eq]
  simp only [List.cons_append, List.append_assoc]

/-! ### Buttons read again -/

theorem typedButtons_cons_of_none {c : Char} {s : List Char} (h : button? (c :: s) = none) :
    typedButtons.revise (c :: s) = c :: typedButtons.revise s :=
  replaceAll_cons_of_none h

theorem typedButtons_append_of_some {t r attrs : List Char} (ht : t ≠ [])
    (h : button? (t ++ r) = some (attrs, r)) :
    typedButtons.revise (t ++ r) =
      (if hasType attrs then t else typedButton attrs) ++ typedButtons.revise r :=
  replaceAll_append_of_some ht h

/-- The rule writes buttons in the place of buttons. -/
theorem tagsRewritten_typedButtons (s : List Char) :
    TagsRewritten s (typedButtons.revise s) := by
  refine TagsRewritten.replaceAll consumes_button? (fun t attrs r ha => ?_) s
  obtain rfl := text_of_tag? ha
  have htag : ("<button".toList ++ attrs ++ ['>']).head? = some '<' ∧
      '>' ∈ "<button".toList ++ attrs ++ ['>'] :=
    ⟨rfl, by simp⟩
  refine ⟨htag, ?_⟩
  split
  · exact htag
  · rw [typedButton_eq_append]
    exact ⟨rfl, by simp⟩

/-- Where no button stood none is written. -/
theorem button?_cons_typedButtons {c : Char} {s : List Char} (h : button? (c :: s) = none) :
    button? (c :: typedButtons.revise s) = none := by
  rw [button?, buttonOpening_eq] at h ⊢
  exact (tagsRewritten_typedButtons s).tag?_cons (by decide) h

/-- A piece of a text as the rule leaves it. -/
def typedPiece : Piece (List Char) → Piece (List Char)
  | .plain c => .plain c
  | .found t attrs =>
    if hasType attrs then .found t attrs else .found (typedButton attrs) (typeText ++ attrs)

/-- **The buttons of a rewritten text are those of the text, one to one.** -/
theorem pieces_typedButtons (s : List Char) :
    pieces button? (typedButtons.revise s) = (pieces button? s).map typedPiece := by
  refine pieces_replaceAll_eq_map consumes_button? (fun _ => rfl)
    (fun _ _ => button?_cons_typedButtons) ?_
  intro t attrs r _ ha
  have htext := text_of_tag? ha
  have hclose := not_mem_of_tag? ha
  rw [typedPiece]
  split
  · refine ⟨attrs, rfl, ?_⟩
    rw [htext, List.append_assoc, List.append_assoc, List.singleton_append]
    exact tag?_append hclose (tag?_eq_some ha).1 _
  · have hnew : '>' ∉ typeText ++ attrs := by
      rw [List.mem_append, not_or]
      exact ⟨by decide, hclose⟩
    refine ⟨typeText ++ attrs, rfl, ?_⟩
    rw [typedButton_eq_append, List.append_assoc, List.append_assoc, List.singleton_append]
    exact tag?_append hnew (Or.inr rfl) _

/-! ### What is inserted -/

/-- Put a text in front of the first of some texts. -/
def glue (u : List Char) : List (List Char) → List (List Char)
  | [] => [u]
  | l :: ls => (u ++ l) :: ls

theorem flatten_glue (u : List Char) (ls : List (List Char)) :
    (glue u ls).flatten = u ++ ls.flatten := by
  cases ls with
  | nil => rfl
  | cons l ls => exact List.append_assoc u l ls.flatten

theorem joinWith_glue (sep u : List Char) (ls : List (List Char)) :
    joinWith sep (glue u ls) = u ++ joinWith sep ls := by
  match ls with
  | [] => exact (List.append_nil u).symm
  | [l] => rfl
  | l :: l' :: ls => exact List.append_assoc u l (sep ++ joinWith sep (l' :: ls))

theorem joinWith_cons_glue (sep l u : List Char) (ls : List (List Char)) :
    joinWith sep (l :: glue u ls) = l ++ (sep ++ (u ++ joinWith sep ls)) := by
  rw [← joinWith_glue]
  cases ls with
  | nil => rfl
  | cons l' ls => rfl

/-- The texts of pieces, cut behind the opening word of each button that states no type. -/
def cutsOf : List (Piece (List Char)) → List (List Char)
  | [] => [[]]
  | .plain c :: ps => glue [c] (cutsOf ps)
  | .found t attrs :: ps =>
    if hasType attrs then glue t (cutsOf ps)
    else "<button".toList :: glue (attrs ++ ['>']) (cutsOf ps)

/-- A text cut behind the opening word of each button that states no type. -/
def typeCuts (s : List Char) : List (List Char) := cutsOf (pieces button? s)

theorem typeCuts_append_of_some {t r attrs : List Char} (ht : t ≠ [])
    (h : button? (t ++ r) = some (attrs, r)) :
    typeCuts (t ++ r) =
      if hasType attrs then glue t (typeCuts r)
      else "<button".toList :: glue (attrs ++ ['>']) (typeCuts r) := by
  rw [typeCuts, pieces_append_of_some ht h, cutsOf]
  rfl

/-- The parts of a text cut for types are the text. -/
theorem flatten_typeCuts (s : List Char) : (typeCuts s).flatten = s := by
  induction s using text_induction consumes_button? with
  | nil => rfl
  | plain c s hn ih =>
    rw [typeCuts, pieces_cons_of_none hn, cutsOf, flatten_glue]
    exact congrArg (c :: ·) ih
  | found t attrs r ht ha ih =>
    have htext := text_of_tag? ha
    rw [typeCuts_append_of_some ht ha]
    split
    · rw [flatten_glue, ih]
    · rw [List.flatten_cons, flatten_glue, ih, htext]
      simp only [List.append_assoc]

/-- With the type between its parts the text is what the rule makes of it. -/
theorem joinWith_typeCuts (s : List Char) :
    joinWith typeText (typeCuts s) = typedButtons.revise s := by
  induction s using text_induction consumes_button? with
  | nil => rfl
  | plain c s hn ih =>
    rw [typeCuts, pieces_cons_of_none hn, cutsOf, joinWith_glue, typedButtons_cons_of_none hn]
    exact congrArg (c :: ·) ih
  | found t attrs r ht ha ih =>
    rw [typeCuts_append_of_some ht ha, typedButtons_append_of_some ht ha, ← ih]
    split
    · rw [joinWith_glue]
    · rw [joinWith_cons_glue, typedButton_eq_append]
      simp only [List.append_assoc]

/-- In a rewritten text every button states its type. -/
theorem hasType_of_mem_typedButtons (s : List Char) :
    ∀ b ∈ occurrences button? (typedButtons.revise s), hasType b.value = true := by
  rw [forall_occurrences_iff (Q := fun _ attrs => hasType attrs = true), pieces_typedButtons]
  intro t attrs h
  obtain ⟨x, -, hx⟩ := List.mem_map.1 h
  cases x with
  | plain c => cases hx
  | found u b =>
    rw [typedPiece] at hx
    split at hx
    · next htype =>
      obtain ⟨-, rfl⟩ := Piece.found.inj hx
      exact htype
    · obtain ⟨-, rfl⟩ := Piece.found.inj hx
      exact hasType_typeText b

/-- **Types are inserted where buttons lack them, and nothing else is done**: every button of the
rewritten text states its type, its pieces are those of the text, of which the buttons that state a
type are kept, the text cut where types are missing is the text, with types between the parts the
rewritten text, and a second run changes nothing. -/
theorem typedButtons_inserts_types (s : List Char) :
    (∀ b ∈ occurrences button? (typedButtons.revise s), hasType b.value = true) ∧
      pieces button? (typedButtons.revise s) = (pieces button? s).map typedPiece ∧
      (typeCuts s).flatten = s ∧ joinWith typeText (typeCuts s) = typedButtons.revise s ∧
      typedButtons.revise (typedButtons.revise s) = typedButtons.revise s :=
  ⟨hasType_of_mem_typedButtons s, pieces_typedButtons s, flatten_typeCuts s, joinWith_typeCuts s,
    typedButtons_eq_self (hasType_of_mem_typedButtons s)⟩

end Markup
end SceneMarkup
