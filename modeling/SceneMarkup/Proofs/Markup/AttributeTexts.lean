import SceneMarkup.Proofs.Markup.Mentions
import SceneMarkup.Proofs.Markup.QuotedAttributes

/-!
# Attribute texts

The attribute text of a tag as it is written with care: attributes behind blanks, each of them a bare
name or a name with a value that is quoted or needs no quotes.  The scanner of attributes reads such
a text as it was written, wherever it stands, as long as what follows it does not go on with its last
attribute.

## Main definitions

* `IsAttributeText` — the text of an attribute.
* `RendersAttributes` — a text of attributes behind blanks.
* `EndsAttribute` — a text that does not go on with the attribute in front of it.
* `IsWritten` — a text of attributes, whichever they are.

## Main results

* `attribute?_append` — an attribute is read from its text.
* `RendersAttributes.values_eq` — **the scanner reads the attributes that were written.**
* `RendersAttributes.exists_cut` — the text around the first attribute of a kind.
* `RendersAttributes.exists_placed_append` — **the place of an attribute behind others.**
* `RendersAttributes.find?_append` — the first attribute of a kind behind others.
* `isWritten_iff` — whether a text is written with care can be told from what the scanner reads.
-/

namespace SceneMarkup
namespace Markup

open Text

/-! ### Single attributes -/

/-- The text of an attribute: its name, and, if it has a value, blanks, an equals sign, blanks and
the value. -/
def IsAttributeText (a : Attribute) (t : List Char) : Prop :=
  a.name ≠ [] ∧ (∀ c ∈ a.name, isNameChar c = true) ∧
    ((a.value = none ∧ t = a.name) ∨
      ∃ v w₁ w₂ u, a.value = some v ∧ (∀ c ∈ w₁, isBlank c = true) ∧
        (∀ c ∈ w₂, isBlank c = true) ∧ IsValueText v u ∧ t = a.name ++ (w₁ ++ '=' :: (w₂ ++ u)))

/-- A text that does not go on with the attribute in front of it: it is empty or starts with a
blank, and no equals sign stands behind the blanks. -/
structure EndsAttribute (z : List Char) : Prop where
  /-- A blank parts it from the attribute. -/
  apart : IsApart z
  /-- It assigns no value to the attribute. -/
  unassigned : (trimStart z).head? ≠ some '='

theorem attributeValue?_append {v u z : List Char} (h : IsValueText v u) (hz : IsApart z) :
    attributeValue? (u ++ z) = some (v, z) := by
  rcases h with ⟨q, hq, hmem, rfl⟩ | ⟨hne, hbare, rfl⟩
  · rw [List.cons_append, List.append_assoc, List.singleton_append, attributeValue?, if_pos hq]
    exact upTo?_eq_some_iff.2 ⟨hmem, rfl⟩
  · obtain ⟨c, v, rfl⟩ := List.exists_cons_of_ne_nil hne
    have hc := hbare c List.mem_cons_self
    have hquote : ¬isQuote c = true := by simp [not_isQuote_of_isBareChar hc]
    obtain ⟨htake, hdrop⟩ := takeWhile_append_of_head? (P := isBareChar) (z := z)
      (fun d hd => hbare d (List.mem_cons_of_mem c hd))
      (fun d hd => by simp [isBareChar, hz d hd])
    rw [List.cons_append, attributeValue?, if_neg hquote, if_pos hc, htake, hdrop]

/-- **An attribute is read from its text**, when what follows does not go on with it. -/
theorem attribute?_append {a : Attribute} {t z : List Char} (h : IsAttributeText a t)
    (hz : EndsAttribute z) : attribute? (t ++ z) = some (a, z) := by
  obtain ⟨name, value⟩ := a
  obtain ⟨hname, hchars, ⟨rfl, rfl⟩ | ⟨v, w₁, w₂, u, rfl, hw₁, hw₂, hu, rfl⟩⟩ := h
  · have hnone : equalsValue? z = none := by
      rw [equalsValue?]
      split
      · next r hr => exact absurd (by rw [hr]; rfl) hz.unassigned
      · rfl
    rw [attribute?_of_name hname (takeWhile_append_of_head? hchars
      fun c hc => not_isNameChar_of_isBlank (hz.apart c hc)),
      behindName_eq_bare_iff.2 ⟨hnone, rfl⟩]
  · have hhead := not_isNameChar_of_equals hw₁ (w₂ ++ (u ++ z))
    have hstart : ∃ c u', u = c :: u' ∧ isBlank c = false := by
      rcases hu with ⟨q, hq, -, rfl⟩ | ⟨hne, hbare, rfl⟩
      · exact ⟨q, _, rfl, not_isBlank_of_isQuote hq⟩
      · obtain ⟨c, v, rfl⟩ := List.exists_cons_of_ne_nil hne
        exact ⟨c, v, rfl, not_isBlank_of_isBareChar (hbare c List.mem_cons_self)⟩
    have htrim : trimStart (w₂ ++ (u ++ z)) = u ++ z := by
      obtain ⟨c, u', rfl, hc⟩ := hstart
      exact trimStart_blanks_append hw₂ hc _
    have hvalue : equalsValue? (w₁ ++ '=' :: (w₂ ++ (u ++ z))) = some (v, z) := by
      simp only [equalsValue?, trimStart_blanks_append hw₁ (d := '=') (by decide), htrim,
        attributeValue?_append hu hz.apart]
    have hassoc : name ++ (w₁ ++ '=' :: (w₂ ++ u)) ++ z = name ++ (w₁ ++ '=' :: (w₂ ++ (u ++ z))) := by
      simp
    rw [hassoc, attribute?_of_name hname (takeWhile_append_of_head? hchars hhead),
      behindName_eq_value_iff.2 hvalue]

theorem IsAttributeText.exists_cons {a : Attribute} {t : List Char} (h : IsAttributeText a t) :
    ∃ c u, t = c :: u ∧ isNameChar c = true := by
  obtain ⟨hname, hchars, htext⟩ := h
  obtain ⟨c, n, hn⟩ := List.exists_cons_of_ne_nil hname
  have hc := hchars c (hn ▸ List.mem_cons_self)
  rcases htext with ⟨-, rfl⟩ | ⟨v, w₁, w₂, u, -, -, -, -, rfl⟩
  · exact ⟨c, n, hn, hc⟩
  · exact ⟨c, _, by rw [hn]; rfl, hc⟩

/-- What is read is an attribute by its text. -/
theorem isAttributeText_of_attribute? {a : Attribute} {t r : List Char}
    (h : attribute? (t ++ r) = some (a, r)) : IsAttributeText a t := by
  obtain ⟨hname, hchars, ⟨hv, hs⟩ | ⟨v, w₁, w₂, u, hv, hw₁, hw₂, hu, hs⟩⟩ := attribute?_eq_some h
  · exact ⟨hname, hchars, Or.inl ⟨hv, List.append_cancel_right hs⟩⟩
  · exact ⟨hname, hchars, Or.inr ⟨v, w₁, w₂, u, hv, hw₁, hw₂, hu,
      List.append_cancel_right (hs.trans (by simp))⟩⟩

/-! ### Attributes behind blanks -/

/-- Attributes in order, each behind blanks, and blanks behind the last one. -/
inductive RendersAttributes : List Attribute → List Char → Prop where
  /-- Blanks at the end. -/
  | nil {w : List Char} (hw : ∀ c ∈ w, isBlank c = true) : RendersAttributes [] w
  /-- One more attribute in front. -/
  | cons {w t s : List Char} {a : Attribute} {as : List Attribute} (hw : ∀ c ∈ w, isBlank c = true)
    (hne : w ≠ []) (ht : IsAttributeText a t) (rest : RendersAttributes as s) :
    RendersAttributes (a :: as) (w ++ (t ++ s))

/-- Blanks in front of an attribute end the one before. -/
theorem endsAttribute_blanks_append {w t : List Char} {a : Attribute}
    (hw : ∀ c ∈ w, isBlank c = true) (hne : w ≠ []) (ht : IsAttributeText a t) (z : List Char) :
    EndsAttribute (w ++ (t ++ z)) := by
  obtain ⟨c, u, rfl, hc⟩ := ht.exists_cons
  refine ⟨?_, ?_⟩
  · obtain ⟨b, w, rfl⟩ := List.exists_cons_of_ne_nil hne
    exact isApart_cons (hw b List.mem_cons_self) _
  · rw [List.cons_append, trimStart_blanks_append hw (isBlank_of_isNameChar hc)]
    rintro ⟨⟩
    cases hc

theorem endsAttribute_nil : EndsAttribute [] :=
  ⟨isApart_nil, by simp⟩

theorem placed_plain_append (w : List Char) (n : Nat) (ps : List (Piece Attribute)) :
    placed n (w.map .plain ++ ps) = placed (n + w.length) ps := by
  induction w generalizing n with
  | nil => rfl
  | cons c w ih =>
    rw [List.map_cons, List.cons_append, placed, ih, List.length_cons, Nat.add_right_comm,
      Nat.add_assoc n]

/-- An attribute behind blanks is the first occurrence. -/
theorem placed_blanks_append {w t z : List Char} {a : Attribute} (hw : ∀ c ∈ w, isBlank c = true)
    (hread : attribute? (t ++ z) = some (a, z)) (n : Nat) :
    placed n (pieces attribute? (w ++ (t ++ z))) =
      ⟨n + w.length, t, a⟩ :: placed (n + w.length + t.length) (pieces attribute? z) := by
  have hne : t ≠ [] := by
    rintro rfl
    obtain ⟨u, hu, hs⟩ := consumes_attribute? hread
    simp [hu] at hs
  rw [pieces_blanks_append hw, pieces_append_of_some hne hread, placed_plain_append, placed]

theorem placed_blanks {w : List Char} (hw : ∀ c ∈ w, isBlank c = true) (n : Nat) :
    placed n (pieces attribute? w) = [] := by
  have hpieces := pieces_blanks_append hw []
  rw [List.append_nil, pieces_nil] at hpieces
  rw [hpieces, placed_plain_append, placed]

namespace RendersAttributes

variable {as : List Attribute} {s : List Char}

/-- Attributes end the attribute in front of them, and so does what ends their last one. -/
theorem endsAttribute_append (h : RendersAttributes as s) {z : List Char} (hz : EndsAttribute z) :
    EndsAttribute (s ++ z) := by
  cases h with
  | nil hw =>
    refine ⟨?_, ?_⟩
    · cases s with
      | nil => exact hz.apart
      | cons c s => exact isApart_cons (hw c List.mem_cons_self) _
    · rw [trimStart, List.dropWhile_append_of_pos hw]
      exact hz.unassigned
  | cons hw hne ht rest =>
    rw [List.append_assoc, List.append_assoc]
    exact endsAttribute_blanks_append hw hne ht _

theorem endsAttribute (h : RendersAttributes as s) : EndsAttribute s := by
  have := h.endsAttribute_append endsAttribute_nil
  rwa [List.append_nil] at this

/-- **The scanner reads the attributes that were written.** -/
theorem values_eq (h : RendersAttributes as s) : values attribute? s = as := by
  suffices key : ∀ n, (placed n (pieces attribute? s)).map Occurrence.value = as from key 0
  induction h with
  | nil hw =>
    intro n
    rw [placed_blanks hw, List.map_nil]
  | cons hw _ ht rest ih =>
    intro n
    rw [placed_blanks_append hw (attribute?_append ht rest.endsAttribute), List.map_cons, ih]

/-- The text around the first attribute of a kind. -/
theorem exists_cut (h : RendersAttributes as s) {P : Attribute → Bool} {o : Occurrence Attribute}
    {n : Nat} (ho : (placed n (pieces attribute? s)).find? (fun o => P o.value) = some o) :
    ∃ as₁ s₁ w as₂ s₂, RendersAttributes as₁ s₁ ∧ (∀ a ∈ as₁, P a = false) ∧
      (∀ c ∈ w, isBlank c = true) ∧ w ≠ [] ∧ IsAttributeText o.value o.text ∧
      RendersAttributes as₂ s₂ ∧ s = s₁ ++ (w ++ (o.text ++ s₂)) ∧
      o.start = n + (s₁ ++ w).length := by
  induction h generalizing n with
  | nil hw =>
    rw [placed_blanks hw] at ho
    cases ho
  | @cons w t s a as hw hne ht rest ih =>
    rw [placed_blanks_append hw (attribute?_append ht rest.endsAttribute)] at ho
    cases ha : P a with
    | true =>
      simp only [List.find?_cons, ha] at ho
      obtain rfl := Option.some.inj ho
      exact ⟨[], [], w, as, s, .nil (by simp), by simp, hw, hne, ht, rest, rfl, rfl⟩
    | false =>
      simp only [List.find?_cons, ha] at ho
      obtain ⟨as₁, s₁, w', as₂, s₂, h₁, hnone, hw', hne', htext, h₂, rfl, hstart⟩ := ih ho
      refine ⟨a :: as₁, w ++ (t ++ s₁), w', as₂, s₂, .cons hw hne ht h₁, ?_, hw', hne', htext, h₂,
        by simp, ?_⟩
      · simpa [ha] using hnone
      · rw [hstart]
        simp only [List.length_append]
        omega

/-- **The place of an attribute behind others.** -/
theorem exists_placed_append (h : RendersAttributes as s) {w t z : List Char} {b : Attribute}
    (hw : ∀ c ∈ w, isBlank c = true) (hne : w ≠ []) (hread : attribute? (t ++ z) = some (b, z))
    (n : Nat) : ∃ os, os.map Occurrence.value = as ∧
      placed n (pieces attribute? (s ++ (w ++ (t ++ z)))) = os ++ ⟨n + (s ++ w).length, t, b⟩ ::
        placed (n + (s ++ (w ++ t)).length) (pieces attribute? z) := by
  induction h generalizing n with
  | @nil w' hw' =>
    have hblanks : ∀ c ∈ w' ++ w, isBlank c = true := by
      intro c hc
      exact (List.mem_append.1 hc).elim (hw' c) (hw c)
    refine ⟨[], rfl, ?_⟩
    rw [← List.append_assoc, placed_blanks_append hblanks hread, ← List.append_assoc w' w t,
      @List.length_append _ (w' ++ w) t, Nat.add_assoc]
    rfl
  | @cons w' t' s a as hw' hne' ht' rest ih =>
    have hends : EndsAttribute (s ++ (w ++ (t ++ z))) := rest.endsAttribute_append
      (endsAttribute_blanks_append hw hne (isAttributeText_of_attribute? hread) z)
    obtain ⟨os, hos, hplaced⟩ := ih (n + w'.length + t'.length)
    refine ⟨⟨n + w'.length, t', a⟩ :: os, by rw [List.map_cons, hos], ?_⟩
    rw [List.append_assoc, List.append_assoc,
      placed_blanks_append hw' (attribute?_append ht' hends), hplaced]
    simp only [List.length_append, List.cons_append, Nat.add_assoc]

/-- The first attribute of a kind behind others. -/
theorem find?_append (h : RendersAttributes as s) {P : Attribute → Bool}
    (hnone : ∀ a ∈ as, P a = false) {w t z : List Char} {b : Attribute}
    (hw : ∀ c ∈ w, isBlank c = true) (hne : w ≠ []) (hread : attribute? (t ++ z) = some (b, z))
    (hb : P b = true) (n : Nat) :
    (placed n (pieces attribute? (s ++ (w ++ (t ++ z))))).find? (fun o => P o.value) =
      some ⟨n + (s ++ w).length, t, b⟩ := by
  obtain ⟨os, hos, hplaced⟩ := h.exists_placed_append hw hne hread n
  have hfront : os.find? (fun o => P o.value) = none := by
    rw [List.find?_eq_none]
    intro o ho
    rw [hnone o.value (hos ▸ List.mem_map_of_mem ho)]
    exact Bool.false_ne_true
  rw [hplaced, List.find?_append, hfront, Option.none_or]
  simp only [List.find?_cons, hb]

end RendersAttributes

/-! ### Texts written with care -/

/-- Whether a text is that of some attributes behind blanks. -/
def IsWritten (s : List Char) : Prop := ∃ as, RendersAttributes as s

/-- Whether nothing but blanks stands around the attributes among pieces, and a blank in front of
each of them.  `b` says whether one stands in front of the first piece. -/
def blanksBetween : Bool → List (Piece Attribute) → Bool
  | _, [] => true
  | _, .plain c :: ps => isBlank c && blanksBetween true ps
  | b, .found _ _ :: ps => b && blanksBetween false ps

theorem blanksBetween_plain_append {w : List Char} (hw : ∀ c ∈ w, isBlank c = true) (hne : w ≠ [])
    (b : Bool) (ps : List (Piece Attribute)) :
    blanksBetween b (w.map .plain ++ ps) = blanksBetween true ps := by
  induction w generalizing b with
  | nil => exact absurd rfl hne
  | cons c w ih =>
    rw [List.map_cons, List.cons_append, blanksBetween, hw c List.mem_cons_self, Bool.true_and]
    cases w with
    | nil => rfl
    | cons d w => exact ih (fun e he => hw e (List.mem_cons_of_mem c he)) (List.cons_ne_nil _ _) true

theorem RendersAttributes.blanksBetween_pieces {as : List Attribute} {s : List Char}
    (h : RendersAttributes as s) (b : Bool) : blanksBetween b (pieces attribute? s) = true := by
  induction h generalizing b with
  | @nil w hw =>
    have hpieces := pieces_blanks_append hw []
    rw [List.append_nil, pieces_nil] at hpieces
    rw [hpieces]
    cases w with
    | nil => rfl
    | cons c w => exact blanksBetween_plain_append hw (List.cons_ne_nil c w) b []
  | cons hw hne ht rest ih =>
    obtain ⟨c, u, htext, -⟩ := ht.exists_cons
    rw [pieces_blanks_append hw, pieces_append_of_some (htext ▸ List.cons_ne_nil c u)
      (attribute?_append ht rest.endsAttribute), blanksBetween_plain_append hw hne]
    exact ih false

/-- A text whose attributes have blanks between them starts with a blank or, when a blank stands in
front of it, with an attribute. -/
theorem rendersAttributes_of_blanksBetween {s : List Char} {b : Bool}
    (h : blanksBetween b (pieces attribute? s) = true) :
    IsWritten s ∨ b = true ∧ ∃ a t r, IsAttributeText a t ∧ IsWritten r ∧ s = t ++ r := by
  induction s using text_induction consumes_attribute? generalizing b with
  | nil => exact Or.inl ⟨[], .nil (by simp)⟩
  | plain c s hn ih =>
    rw [pieces_cons_of_none hn, blanksBetween, Bool.and_eq_true] at h
    have hc : ∀ d ∈ [c], isBlank d = true := by simpa using h.1
    refine Or.inl ?_
    rcases ih h.2 with ⟨as, has⟩ | ⟨-, a, t, r, ht, ⟨as, has⟩, rfl⟩
    · have hblank : ∀ {w : List Char}, (∀ d ∈ w, isBlank d = true) → ∀ d ∈ c :: w, isBlank d = true :=
        fun hw => List.forall_mem_cons.2 ⟨h.1, hw⟩
      cases has with
      | nil hw => exact ⟨[], .nil (hblank hw)⟩
      | cons hw _ ht rest => exact ⟨_, .cons (hblank hw) (List.cons_ne_nil _ _) ht rest⟩
    · exact ⟨a :: as, .cons hc (List.cons_ne_nil _ _) ht has⟩
  | found t a r ht ha ih =>
    rw [pieces_append_of_some ht ha, blanksBetween, Bool.and_eq_true] at h
    refine Or.inr ⟨h.1, a, t, r, isAttributeText_of_attribute? ha, ?_, rfl⟩
    exact (ih h.2).resolve_right fun hfalse => Bool.false_ne_true hfalse.1

/-- **A text is written with care when the scanner finds its attributes with blanks between
them.** -/
theorem isWritten_iff {s : List Char} :
    IsWritten s ↔ blanksBetween false (pieces attribute? s) = true :=
  ⟨fun ⟨_, h⟩ => h.blanksBetween_pieces false, fun h =>
    (rendersAttributes_of_blanksBetween h).resolve_right fun hfalse =>
      Bool.false_ne_true hfalse.1⟩

instance (s : List Char) : Decidable (IsWritten s) :=
  decidable_of_iff _ isWritten_iff.symm

end Markup
end SceneMarkup
