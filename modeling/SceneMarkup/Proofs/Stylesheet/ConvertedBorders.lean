import SceneMarkup.Proofs.Stylesheet.ConvertTwice
import SceneMarkup.Proofs.Stylesheet.StableValues

/-!
# Borders converted at once

The colour of a border may be given by its channels, and between their parentheses any text may
stand, another declaration of a border among them.  Once the outer declaration is converted, the
inner one can be seen: it reaches from its colon to the end of the mixin, over the parenthesis of the
colour and over that of the mixin.  But no value that can be converted has two closing parentheses.
So one run of the rule converts all that it can, and a second one finds nothing.

## Main definitions

* `ClosesOnce` — a text with one closing parenthesis, at its end, or with none and no colon.

## Main results

* `closesOnce_borderValue?` — the argument for a border is such a text.
* `count_close_of_borderArgument?` — a value that is converted has one closing parenthesis at most.
* `count_close_of_mem_mixin` — a value seen in a mixin has one more than what follows its colon.
* `borders_converted_at_once` — **a second run changes nothing, and the first one leaves nothing to
  convert.**
-/

namespace SceneMarkup
namespace Stylesheet

open Text

/-! ### Closing parentheses of values -/

/-- A text with one closing parenthesis, at its end, or with none and no colon. -/
def ClosesOnce (s : List Char) : Prop :=
  (':' ∉ s ∧ ')' ∉ s) ∨ ∃ u, s = u ++ [')'] ∧ ')' ∉ u

theorem closesOnce_of_forall {P : Char → Prop} (hcolon : ¬P ':') (hclose : ¬P ')') {s : List Char}
    (hs : ∀ c ∈ s, P c) : ClosesOnce s :=
  Or.inl ⟨fun h => hcolon (hs ':' h), fun h => hclose (hs ')' h)⟩

theorem ClosesOnce.append {x s : List Char} (hcolon : ':' ∉ x) (hclose : ')' ∉ x)
    (hs : ClosesOnce s) : ClosesOnce (x ++ s) := by
  rcases hs with ⟨hs, hs'⟩ | ⟨u, rfl, hu⟩
  · simp [ClosesOnce, hcolon, hclose, hs, hs']
  · exact Or.inr ⟨x ++ u, (List.append_assoc x u _).symm, by simp [hclose, hu]⟩

theorem ClosesOnce.count_le {s : List Char} (hs : ClosesOnce s) : s.count ')' ≤ 1 := by
  rcases hs with ⟨-, hs⟩ | ⟨u, rfl, hu⟩
  · rw [List.count_eq_zero_of_not_mem hs]
    exact Nat.zero_le 1
  · rw [List.count_append, List.count_eq_zero_of_not_mem hu, List.count_singleton_self]

theorem ClosesOnce.getLast? {s : List Char} (hs : ClosesOnce s) (hcolon : ':' ∈ s) :
    s.getLast? = some ')' := by
  rcases hs with ⟨hs, -⟩ | ⟨u, rfl, -⟩
  · exact absurd hcolon hs
  · exact List.getLast?_concat

/-- The parenthesis of an argument list closes at its end. -/
theorem closesOnce_of_isArgumentList {s : List Char} (h : isArgumentList s = true) :
    ClosesOnce s := by
  unfold isArgumentList at h
  split at h
  · next s =>
    split at h
    · next hdrop =>
      refine Or.inr ⟨'(' :: s.takeWhile (· != ')'), ?_, ?_⟩
      · rw [List.cons_append, ← hdrop, List.takeWhile_append_dropWhile]
      · rw [List.mem_cons, not_or]
        exact ⟨by decide, fun hmem => by simpa using List.mem_takeWhile_imp hmem⟩
    · cases h
  · cases h

theorem not_mem_of_map_fold {word u : List Char} {c : Char} (hu : u.map fold = word)
    (hc : fold c ∉ word) : c ∉ u :=
  fun h => hc (hu ▸ List.mem_map_of_mem h)

theorem closesOnce_of_isChannelColor {s : List Char} (h : isChannelColor s = true) :
    ClosesOnce s := by
  rw [isChannelColor] at h
  have hword : ∀ {word r : List Char}, afterFolded? word s = some r → fold ':' ∉ word →
      fold ')' ∉ word → isArgumentList r = true → ClosesOnce s := by
    intro word r hr hcolon hclose hlist
    obtain ⟨u, hu, rfl⟩ := afterFolded?_eq_some_iff.1 hr
    exact (closesOnce_of_isArgumentList hlist).append (not_mem_of_map_fold hu hcolon)
      (not_mem_of_map_fold hu hclose)
  split at h
  · next r hr => exact hword hr (by decide) (by decide) h
  · split at h
    · next r hr => exact hword hr (by decide) (by decide) h
    · cases h

/-- Only the channels of a colour have a parenthesis or a colon, and they end with their only closing
one. -/
theorem closesOnce_of_isBorderColor {s : List Char} (h : isBorderColor s = true) :
    ClosesOnce s := by
  simp only [isBorderColor, Bool.or_eq_true] at h
  rcases h with ((h | h) | h) | h
  · unfold isHexLiteral at h
    split at h
    · next s =>
      simp only [Bool.and_eq_true, List.all_eq_true] at h
      exact (closesOnce_of_forall (by decide) (by decide) h.1.1).append (x := ['#']) (by decide)
        (by decide)
    · cases h
  · unfold isVariableName at h
    split at h
    · next c s =>
      simp only [Bool.and_eq_true, List.all_eq_true] at h
      have hfront : ∀ d, isFoldedLetter d = false → d ≠ '$' → d ∉ ['$', c] := by
        intro d hd hne hmem
        rcases List.mem_pair.1 hmem with rfl | rfl
        · exact hne rfl
        · rw [h.1] at hd
          cases hd
      exact (closesOnce_of_forall (by decide) (by decide) h.2).append (x := ['$', c])
        (hfront ':' (by decide) (by decide)) (hfront ')' (by decide) (by decide))
    · cases h
  · simp only [isLetterWord, Bool.and_eq_true, List.all_eq_true] at h
    exact closesOnce_of_forall (by decide) (by decide) h.2
  · exact closesOnce_of_isChannelColor h

/-- The style of a border is one of the words, in any case. -/
theorem map_fold_of_borderStyle? {s style r : List Char} (h : borderStyle? s = some (style, r)) :
    ∃ word ∈ borderStyles, style.map fold = word.toList := by
  rw [borderStyle?_eq] at h
  obtain ⟨word, hmem, h⟩ := List.exists_of_findSome?_eq_some h
  exact ⟨word, hmem, (styleAfter?_eq_some_iff.1 h).1⟩

theorem not_mem_of_unsigned? {s n r : List Char} {c : Char} (h : unsigned? s = some (n, r))
    (hc : isNumberChar c = false) : c ∉ n := by
  intro hmem
  rw [isNumberChar_of_mem_unsigned? h c hmem] at hc
  cases hc

/-- The argument for a border closes once. -/
theorem closesOnce_borderValue? {v w : List Char} (h : borderValue? v = some w) :
    ClosesOnce w := by
  have hfree : ∀ word ∈ borderStyles, fold ':' ∉ word.toList ∧ fold ')' ∉ word.toList := by decide
  rw [borderValue?] at h
  split at h
  · next argument ha =>
    cases h
    obtain ⟨width, r, style, color, hwidth, hstyle, hcolor, rfl⟩ :=
      borderShorthand?_eq_some_iff.1 ha
    obtain ⟨r', hwidth, -⟩ := spacedLength?_eq_some_iff.1 hwidth
    obtain ⟨word, hmem, hword⟩ := map_fold_of_borderStyle? hstyle
    have hjoin : joinWith [' '] [width, style, color]
        = (width ++ ' ' :: (style ++ [' '])) ++ color := by simp
    rw [hjoin]
    have hfront : ∀ c, isNumberChar c = false → fold c ∉ word.toList → c ≠ ' ' →
        c ∉ width ++ ' ' :: (style ++ [' ']) := by
      intro c hnumber hstyle hne
      simp [not_mem_of_unsigned? hwidth hnumber, not_mem_of_map_fold hword hstyle, hne]
    exact (closesOnce_of_isBorderColor hcolor).append
      (hfront ':' (by decide) (hfree word hmem).1 (by decide))
      (hfront ')' (by decide) (hfree word hmem).2 (by decide))
  · obtain ⟨r, hwidth, -⟩ := borderWidth?_eq_some_iff.1 h
    exact closesOnce_of_forall (by decide) (by decide) (isNumberChar_of_mem_unsigned? hwidth)

/-- The value of a border is converted unless the rule leaves such values alone. -/
theorem borderArgument?_eq_some_iff {v w : List Char} :
    borderArgument? v = some w ↔ borderValue? (trim v) = some w ∧
      ¬(contains "calc(".toList (trim v) = true ∨ sameAscii (trim v) "none".toList = true ∨
        trim v = ['0']) := by
  rw [borderArgument?]
  split
  · next h =>
    rw [Bool.or_eq_true, Bool.or_eq_true, beq_iff_eq, or_assoc] at h
    simp only [reduceCtorEq, h, not_true, and_false]
  · next h =>
    rw [Bool.or_eq_true, Bool.or_eq_true, beq_iff_eq, or_assoc] at h
    simp only [h, not_false_iff, and_true]

/-- A value that is converted has one closing parenthesis at most. -/
theorem count_close_of_borderArgument? {v w : List Char} (h : borderArgument? v = some w) :
    v.count ')' ≤ 1 := by
  have hkept := congrArg (List.count ')') (lasting_borderArgument? h)
  rw [count_lasting (by decide), count_lasting (by decide)] at hkept
  rw [← hkept]
  exact (closesOnce_borderValue? (borderArgument?_eq_some_iff.1 h).1).count_le

/-! ### Declarations seen in a mixin -/

theorem mixinCall_eq (p w : List Char) :
    mixinCall p w = ("@include rem(".toList ++ (p ++ ", ".toList)) ++ (w ++ [')']) := by
  unfold mixinCall
  rw [List.append_assoc, List.append_assoc]

/-- A value seen in a mixin starts behind a colon of the argument, and it has the closing
parenthesis of the mixin besides those of the argument that follow. -/
theorem count_close_of_mem_mixin {ps : List (List Char)} {p w : List Char} (hp : IsPlainName p)
    (hw : ';' ∉ w) {o : Occurrence Declaration}
    (ho : o ∈ occurrences (declaration? ps) (mixin p w)) :
    ∃ y z, w = y ++ ':' :: z ∧ o.value.value.count ')' = z.count ')' + 1 := by
  obtain ⟨x, r, hs, -, -, hread⟩ := place_of_mem_occurrences (consumes_declaration? ps) ho
  obtain ⟨-, -, -, w₁, w₂, -, hw₂, -, htext⟩ := declaration?_eq_some hread
  -- the declaration ends at the semicolon of the mixin
  have hend : (x ++ (o.value.lead ++ (o.value.property ++ w₁)) ++ ':' :: (w₂ ++ o.value.value)) ++
      ';' :: r = mixinCall p w ++ [';'] := by
    rw [← mixin_eq, hs, htext]
    simp
  obtain ⟨a, hcall, ha⟩ := eq_append_of_not_mem
    (not_semicolon_mixinCall hp.not_semicolon hw) hend
  obtain rfl : a = [] := by
    cases a with
    | nil => rfl
    | cons c a => simp at ha
  -- and its colon stands in the argument
  have hfree : ':' ∉ "@include rem(".toList ++ (p ++ ", ".toList) := by
    simp [hp.not_colon]
  have hbehind : (x ++ (o.value.lead ++ (o.value.property ++ w₁))) ++ ':' ::
      (w₂ ++ o.value.value) = ("@include rem(".toList ++ (p ++ ", ".toList)) ++ (w ++ [')']) := by
    rw [hcall, List.append_nil, mixinCall_eq]
  obtain ⟨y, -, hrest⟩ := eq_append_of_not_mem hfree hbehind
  rcases List.eq_nil_or_concat (w₂ ++ o.value.value) with hnil | ⟨z, d, hz⟩
  · rw [hnil] at hrest
    cases (List.append_inj' hrest rfl).2
  · rw [hz, List.concat_eq_append, ← List.cons_append, ← List.append_assoc] at hrest
    obtain ⟨rfl, hd⟩ := List.append_inj' hrest rfl
    refine ⟨y, z, rfl, ?_⟩
    have hcount := congrArg (List.count ')') hz
    rwa [List.count_append, count_blanks (by decide) hw₂, Nat.zero_add, List.concat_eq_append,
      ← hd, List.count_append, List.count_singleton_self] at hcount

/-! ### The rule of borders -/

theorem isPlainName_of_mem_borderProperties :
    ∀ q ∈ borderProperties.map String.toList, IsPlainName q := by
  decide

/-- Nothing is converted in a mixin that the rule has written. -/
theorem convert_mixin_of_borderArgument? {p v w : List Char}
    (hp : p ∈ borderProperties.map String.toList) (hv : ';' ∉ v) (h : borderArgument? v = some w) :
    convert (borderProperties.map String.toList) borderArgument? (mixin p w) = mixin p w := by
  refine convert_eq_self fun o ho => ?_
  have hw : ';' ∉ w := fun hmem =>
    hv (mem_of_mem_argument (fun _ _ => lasting_borderArgument?) h (by decide) hmem)
  obtain ⟨y, z, rfl, hcount⟩ := count_close_of_mem_mixin
    (isPlainName_of_mem_borderProperties p hp) hw ho
  -- the argument has a colon, so it ends with a parenthesis, which the value seen has as well
  have hlast := (closesOnce_borderValue? (borderArgument?_eq_some_iff.1 h).1).getLast?
    (List.mem_append_right y List.mem_cons_self)
  rw [List.getLast?_append_of_ne_nil y (List.cons_ne_nil ':' z)] at hlast
  have hz : ')' ∈ z := (List.mem_cons.1 (List.mem_of_getLast? hlast)).resolve_left (by decide)
  by_contra hnone
  obtain ⟨w', hw'⟩ := Option.ne_none_iff_exists'.1 hnone
  have hle := count_close_of_borderArgument? hw'
  have hpos := List.count_pos_iff.2 hz
  omega

/-- **Borders are converted at once.**  A second run of the rule changes nothing, and the first one
leaves no border whose value could be converted, but for `none`, `0` and computed values, which the
rule leaves alone. -/
theorem borders_converted_at_once (s : List Char) :
    borders.revise (borders.revise s) = borders.revise s ∧
      ∀ d ∈ occurrences (declaration? (borderProperties.map String.toList)) (borders.revise s),
        borderValue? (trim d.value.value) = none ∨
          sameAscii (trim d.value.value) "none".toList = true ∨ trim d.value.value = ['0'] ∨
          contains "calc(".toList (trim d.value.value) = true := by
  have hf : ∀ v w, borderArgument? v = some w → lasting w = lasting v :=
    fun _ _ => lasting_borderArgument?
  rw [revise_borders]
  have hagain := (convert_convert_iff isPlainName_of_mem_borderProperties hf s).2
    fun d hd w hw => by
    obtain ⟨r, -, hread⟩ := read_of_mem_occurrences (consumes_declaration? _) hd
    obtain ⟨-, -, hmem, _, _, -, -, hval, -⟩ := declaration?_eq_some hread
    exact convert_mixin_of_borderArgument? hmem (not_semicolon_of_isValueChar
      fun c hc => hval c (List.mem_append_right _ hc)) hw
  refine ⟨hagain, fun d hd => ?_⟩
  have hnone := (convert_eq_self_iff hf).1 hagain d hd
  cases hvalue : borderValue? (trim d.value.value) with
  | none => exact Or.inl rfl
  | some w =>
    refine Or.inr ?_
    by_contra hkept
    have hsome := borderArgument?_eq_some_iff.2 ⟨hvalue, fun h => hkept (by tauto)⟩
    rw [hnone] at hsome
    cases hsome

/-- A border in the colour of another one is seen once the outer one is converted, and it stays. -/
theorem borders_converted_at_once_nested :
    let sheet := "\n  border: 1px solid rgb( border-top: 2px dotted rgb(0);".toList
    let inner := "2px dotted rgb(0))".toList
    borders.revise sheet ≠ sheet ∧ borders.revise (borders.revise sheet) = borders.revise sheet ∧
      ∃ d ∈ occurrences (declaration? (borderProperties.map String.toList)) (borders.revise sheet),
        trim d.value.value = inner ∧ borderValue? (trim d.value.value) = none := by
  intro sheet inner
  obtain ⟨hagain, hleft⟩ := borders_converted_at_once sheet
  have hseen : inner ∈ (occurrences (declaration? (borderProperties.map String.toList))
      (borders.revise sheet)).map fun d => trim d.value.value := by
    decide +kernel
  obtain ⟨d, hd, hinner⟩ := List.mem_map.1 hseen
  refine ⟨by decide +kernel, hagain, d, hd, hinner, (hleft d hd).resolve_right ?_⟩
  rw [hinner]
  decide +kernel

end Stylesheet
end SceneMarkup
