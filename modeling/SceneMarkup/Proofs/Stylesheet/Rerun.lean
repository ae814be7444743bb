import SceneMarkup.Proofs.Stylesheet.BlockMarks
import SceneMarkup.Proofs.Stylesheet.Variables

/-!
# Stylesheets run through the house rules again

The last two rules leave nothing for themselves: their results have no variable, and a remark on
every deep line.  The conversions do not always go that far, since a value may itself have the form
of a declaration: of ` top:top:2 4;` the outer declaration is converted by the first run, and the
inner one, which it enclosed, by the second.  A second run changes nothing exactly when the first
one left no such declaration.

## Main definitions

* `IsConverted` — no declaration is left that a conversion would change.

## Main results

* `markDeep_markDeep` — remarks are made once.
* `isConverted_of_normalize_eq_self` — a stylesheet that the house rules keep is converted: each
  conversion adds an at sign, and no rule takes one away.
* `rerun_eq_iff_isConverted` — **a second run changes nothing exactly when the result of the first
  is converted.**
-/

namespace SceneMarkup
namespace Stylesheet

open Text

/-- The listed properties, in the order in which the rule of sizes tries them. -/
abbrev sizeProperties (o : Options) : List (List Char) :=
  (propertyOrder o.remProperties).map String.toList

/-- A stylesheet without a declaration that a conversion would change. -/
structure IsConverted (o : Options) (s : List Char) : Prop where
  /-- No value is written with the `rem` function. -/
  functions : occurrences remFunction? s = []
  /-- No size of a listed property is an argument of the mixin. -/
  sizes : ∀ d ∈ occurrences (declaration? (sizeProperties o)) s, remArgument? d.value.value = none
  /-- No border is. -/
  borders : ∀ d ∈ occurrences (declaration? (borderProperties.map String.toList)) s,
    borderArgument? d.value.value = none
  /-- No shadow is. -/
  shadows : ∀ d ∈ occurrences (declaration? (shadowProperties.map String.toList)) s,
    shadowArgument? d.value.value = none

instance (o : Options) (s : List Char) : Decidable (IsConverted o s) :=
  decidable_of_iff
    (occurrences remFunction? s = [] ∧
      (∀ d ∈ occurrences (declaration? (sizeProperties o)) s, remArgument? d.value.value = none) ∧
      (∀ d ∈ occurrences (declaration? (borderProperties.map String.toList)) s,
        borderArgument? d.value.value = none) ∧
      (∀ d ∈ occurrences (declaration? (shadowProperties.map String.toList)) s,
        shadowArgument? d.value.value = none))
    ⟨fun ⟨h₁, h₂, h₃, h₄⟩ => ⟨h₁, h₂, h₃, h₄⟩, fun h => ⟨h.1, h.2, h.3, h.4⟩⟩

/-! ### Conversions -/

/-- The lasting characters of a text have all its at signs, and whatever else is lasting. -/
theorem count_lasting {b : Char} (hb : isLasting b = true) (s : List Char) :
    (lasting s).count b = s.count b :=
  List.count_filter hb

theorem count_blanks {b : Char} (hb : isLasting b = true) {w : List Char}
    (h : ∀ c ∈ w, isBlank c = true) : w.count b = 0 := by
  rw [← count_lasting hb, lasting_blanks h, List.count_nil]

theorem count_mixin (property argument : List Char) :
    (mixin property argument).count '@' = property.count '@' + argument.count '@' + 1 := by
  have hopen : "@include rem(".toList.count '@' = 1 := by decide
  have hcomma : ", ".toList.count '@' = 0 := by decide
  have hclose : ");".toList.count '@' = 0 := by decide
  unfold mixin
  rw [List.count_append, List.count_append, List.count_append, List.count_append]
  omega

theorem count_cons_of_not {c : Char} (h : c ≠ '@') (s : List Char) :
    (c :: s).count '@' = s.count '@' :=
  List.count_cons_of_ne h

/-- A converted declaration has one more at sign. -/
theorem count_declaration {properties : List (List Char)} {t r : List Char} {d : Declaration}
    (h : declaration? properties (t ++ r) = some (d, r)) {w : List Char}
    (hw : lasting w = lasting d.value) :
    (d.lead ++ mixin d.property w).count '@' = t.count '@' + 1 := by
  obtain ⟨w₁, w₂, hw₁, hw₂, -, rfl⟩ := text_of_declaration? h
  have harg : w.count '@' = d.value.count '@' := by
    rw [← count_lasting (by decide), hw, count_lasting (by decide)]
  simp only [List.count_append, count_mixin, count_cons_of_not (c := ':') (by decide),
    count_cons_of_not (c := ';') (by decide), count_blanks (b := '@') (by decide) hw₁,
    count_blanks (b := '@') (by decide) hw₂, List.count_nil]
  omega

/-- A converted `rem` function has one more at sign. -/
theorem count_remFunction {t r : List Char} {d : Declaration}
    (h : remFunction? (t ++ r) = some (d, r)) :
    (d.lead ++ mixin d.property (trim (erase "px".toList d.value))).count '@'
      = t.count '@' + 1 := by
  obtain ⟨-, w₁, w₂, w₃, hw₁, hw₂, hw₃, rfl⟩ := text_of_remFunction? h
  have harg : (trim (erase "px".toList d.value)).count '@' = d.value.count '@' := by
    rw [← count_lasting (by decide), lasting_trim, count_lasting (by decide),
      List.count_eq_length_filter, filter_erase (by decide) (by decide),
      ← List.count_eq_length_filter]
  have hrem : "rem(".toList.count '@' = 0 := by decide
  simp only [List.count_append, count_mixin, harg, hrem, count_blanks (b := '@') (by decide) hw₁,
    count_blanks (b := '@') (by decide) hw₂, count_blanks (b := '@') (by decide) hw₃,
    count_cons_of_not (c := ':') (by decide),
    count_cons_of_not (c := ')') (by decide), count_cons_of_not (c := ';') (by decide),
    List.count_nil]
  omega

/-- A conversion that keeps the lasting characters finds nothing to convert in a text, or its result
has more at signs than the text. -/
theorem convert_idle_or_adds (properties : List (List Char))
    {f : List Char → Option (List Char)} (hf : ∀ v w, f v = some w → lasting w = lasting v)
    (s : List Char) :
    (∀ d ∈ occurrences (declaration? properties) s, f d.value.value = none) ∨
      s.count '@' < (convert properties f s).count '@' := by
  refine replaceAll_idle_or_adds (consumes_declaration? properties)
    (I := fun d => f d.value = none) ?_ s
  intro t d r hd
  cases hw : f d.value with
  | none => exact Or.inl ⟨rfl, rfl⟩
  | some w =>
    refine Or.inr ?_
    dsimp only
    rw [count_declaration hd (hf _ _ hw)]
    exact Nat.lt_succ_self _

theorem remFunctions_idle_or_adds (s : List Char) :
    occurrences remFunction? s = [] ∨ s.count '@' < (remFunctions.revise s).count '@' := by
  rcases replaceAll_idle_or_adds consumes_remFunction? (c := '@') (I := fun _ => False)
    (f := fun _ d => d.lead ++ mixin d.property (trim (erase "px".toList d.value)))
    (fun t d r hd => Or.inr (by rw [count_remFunction hd]; exact Nat.lt_succ_self _)) s with h | h
  · exact Or.inl (List.eq_nil_iff_forall_not_mem.2 h)
  · exact Or.inr h

/-- A conversion with nothing to convert keeps the text. -/
theorem convert_eq_self {properties : List (List Char)} {f : List Char → Option (List Char)}
    {s : List Char}
    (h : ∀ d ∈ occurrences (declaration? properties) s, f d.value.value = none) :
    convert properties f s = s := by
  refine replaceAll_eq_self fun d hd => ?_
  simp only [h d hd]

theorem remFunctions_eq_self {s : List Char} (h : occurrences remFunction? s = []) :
    remFunctions.revise s = s :=
  replaceAll_eq_self fun o ho => by simp [h] at ho

theorem count_convert_le (properties : List (List Char)) {f : List Char → Option (List Char)}
    (hf : ∀ v w, f v = some w → lasting w = lasting v) (s : List Char) :
    s.count '@' ≤ (convert properties f s).count '@' := by
  rcases convert_idle_or_adds properties hf s with h | h
  · rw [convert_eq_self h]
  · exact h.le

/-- No at sign is lost when variables are replaced: their names have none. -/
theorem count_inlineColors_le (fallback s : List Char) :
    s.count '@' ≤ ((inlineColors fallback).revise s).count '@' := by
  refine replaceAll_induction (R := fun s s' => s.count '@' ≤ s'.count '@')
    consumes_variableName? le_rfl ?_ ?_ s
  · intro c s s' _ ih
    rw [List.count_cons, List.count_cons]
    omega
  · intro t name r r' _ h ih
    obtain ⟨hs, c, u, hname, hc, hu⟩ := variableName?_eq_some h
    obtain rfl : t = name := List.append_cancel_right hs
    have hnone : t.count '@' = 0 := by
      rw [hname, List.count_eq_zero]
      intro hmem
      rcases List.mem_cons.1 hmem with hx | hmem
      · exact absurd hx (by decide)
      · rcases List.mem_cons.1 hmem with rfl | hx
        · exact absurd hc (by decide)
        · exact absurd (hu _ hx) (by decide)
    rw [List.count_append, List.count_append, hnone]
    omega

theorem count_markDeep (limit : Nat) (s : List Char) :
    (markDeep limit s).count '@' = s.count '@' := by
  have hq : ∀ x ∈ remark limit, (x == '@') = false := by
    intro x hx
    refine beq_false_of_ne ?_
    rintro rfl
    exact not_mem_remark (by decide) (by decide) hx
  rw [List.count_eq_length_filter, List.count_eq_length_filter,
    filter_markDeep limit hq (by decide)]

/-- A stylesheet that the house rules keep is converted: a conversion would add an at sign, and the
rules behind it take none away. -/
theorem isConverted_of_normalize_eq_self {o : Options} {s : List Char} (h : normalize o s = s) :
    IsConverted o s := by
  have hcount : ((inlineColors o.colorFallback.toList).revise
      (convert (shadowProperties.map String.toList) shadowArgument?
        (convert (borderProperties.map String.toList) borderArgument?
          (convert (sizeProperties o) remArgument? (remFunctions.revise s))))).count '@'
        = s.count '@' := by
    rw [← count_markDeep o.nestingLimit, ← normalize_eq, h]
  have hcolor := count_inlineColors_le o.colorFallback.toList
  have hshadow := count_convert_le (shadowProperties.map String.toList)
    (f := shadowArgument?) fun _ _ => lasting_shadowArgument?
  have hborder := count_convert_le (borderProperties.map String.toList)
    (f := borderArgument?) fun _ _ => lasting_borderArgument?
  have hsize := count_convert_le (sizeProperties o)
    (f := remArgument?) fun _ _ => lasting_remArgument?
  -- no step takes an at sign away, so a step that added one would show in the end
  have hback := fun t => (hshadow t).trans (hcolor _)
  have hback' := fun t => (hborder t).trans (hback _)
  have hback'' := fun t => (hsize t).trans (hback' _)
  have h₁ : occurrences remFunction? s = [] := by
    refine (remFunctions_idle_or_adds s).resolve_right fun hlt => ?_
    have := hback'' (remFunctions.revise s)
    omega
  rw [remFunctions_eq_self h₁] at hcount
  have h₂ := (convert_idle_or_adds (sizeProperties o) (f := remArgument?)
    (fun _ _ => lasting_remArgument?) s).resolve_right fun hlt => by
      have := hback' (convert (sizeProperties o) remArgument? s)
      omega
  rw [convert_eq_self h₂] at hcount
  have h₃ := (convert_idle_or_adds (borderProperties.map String.toList) (f := borderArgument?)
    (fun _ _ => lasting_borderArgument?) s).resolve_right fun hlt => by
      have := hback (convert (borderProperties.map String.toList) borderArgument? s)
      omega
  rw [convert_eq_self h₃] at hcount
  have h₄ := (convert_idle_or_adds (shadowProperties.map String.toList) (f := shadowArgument?)
    (fun _ _ => lasting_shadowArgument?) s).resolve_right fun hlt => by
      have := hcolor (convert (shadowProperties.map String.toList) shadowArgument? s)
      omega
  exact ⟨h₁, h₂, h₃, h₄⟩

/-! ### A second run -/

/-- The house rules leave no deep line without a remark. -/
theorem markDeep_normalize (o : Options) (s : List Char) :
    markDeep o.nestingLimit (normalize o s) = normalize o s := by
  rw [normalize_eq, markDeep_markDeep]

/-- A converted stylesheet without variables is only remarked on. -/
theorem normalize_of_isConverted {o : Options} {s : List Char} (h : IsConverted o s)
    (hs : IsVariableFree s) : normalize o s = markDeep o.nestingLimit s := by
  rw [normalize_eq, remFunctions_eq_self h.functions, convert_eq_self h.sizes,
    convert_eq_self h.borders, convert_eq_self h.shadows, inlineColors_eq_self hs]

/-- **A second run of the house rules changes nothing exactly when the first run left no declaration
to convert.** -/
theorem rerun_eq_iff_isConverted (s : List Char) :
    normalize {} (normalize {} s) = normalize {} s ↔ IsConverted {} (normalize {} s) := by
  constructor
  · exact isConverted_of_normalize_eq_self
  · intro h
    have hsharp : IsSharp (({} : Options).colorFallback.toList) := ⟨by decide, by decide⟩
    rw [normalize_of_isConverted h (isVariableFree_normalize hsharp s), markDeep_normalize]

/-- The first run converts the outer declaration, the second one the inner. -/
theorem rerun_ne_of_nested :
    normalize {} (normalize {} " top:top:2 4;".toList) ≠ normalize {} " top:top:2 4;".toList := by
  decide +kernel

end Stylesheet
end SceneMarkup
