import SceneMarkup.Proofs.Text.Filter
import SceneMarkup.Proofs.Text.Scan
import SceneMarkup.Stylesheet.House

/-!
# What the readers of stylesheets read

For each reader of the stylesheet rules the shape of the text that it takes.

## Main results

* `declaration?_eq_some` — blanks, a property of the list, a colon and a value up to a semicolon.
* `remFunction?_eq_some` — the same with the value between the parentheses of `rem`.
* `variableName?_eq_some` — a dollar sign, a letter and the rest of an identifier.
* `consumes_declaration?`, `consumes_remFunction?`, `consumes_variableName?` — each of them takes a
  piece of the text and leaves the rest as it is.
-/

namespace SceneMarkup
namespace Stylesheet

open Text

/-! ### Declarations -/

theorem afterColon?_eq_some {s r : List Char} (h : afterColon? s = some r) :
    ∃ w, (∀ c ∈ w, isBlank c = true) ∧ s = w ++ ':' :: r := by
  obtain ⟨w, hw, hs⟩ := exists_blanks_append_trimStart s
  rw [afterColon?] at h
  split at h
  · next r' hr =>
    cases h
    exact ⟨w, hw, hr ▸ hs⟩
  · cases h

/-- A run is blanks and the value that is left of it; the value of a run that is not empty is not
empty either. -/
theorem exists_blanks_append_withoutLead (run : List Char) :
    ∃ w, (∀ c ∈ w, isBlank c = true) ∧ run = w ++ withoutLead run := by
  obtain ⟨w, hw, hs⟩ := exists_blanks_append_trimStart run
  rw [withoutLead]
  split
  · next h =>
    rw [h, List.append_nil] at hs
    subst hs
    refine ⟨run.take (run.length - 1), fun c hc => hw c (List.mem_of_mem_take hc), ?_⟩
    rw [List.take_append_drop]
  · next v h => exact ⟨w, hw, hs⟩

theorem declarationValue?_eq_some {s v r : List Char} (h : declarationValue? s = some (v, r)) :
    ∃ w, (∀ c ∈ w, isBlank c = true) ∧ (∀ c ∈ w ++ v, isValueChar c = true) ∧
      s = w ++ (v ++ ';' :: r) := by
  rw [declarationValue?] at h
  split at h
  · cases h
  · next rest hrest hrun =>
    obtain ⟨rfl, rfl⟩ := Prod.mk.inj (Option.some.inj h)
    obtain ⟨w, hw, hv⟩ := exists_blanks_append_withoutLead (s.takeWhile isValueChar)
    refine ⟨w, hw, ?_, ?_⟩
    · rw [← hv]
      exact fun c hc => List.mem_takeWhile_imp hc
    · rw [← List.append_assoc, ← hv, ← hrest, List.takeWhile_append_dropWhile]
  · cases h

theorem propertyValue?_eq_some {property s v r : List Char}
    (h : propertyValue? property s = some (v, r)) :
    ∃ w₁ w₂, (∀ c ∈ w₁, isBlank c = true) ∧ (∀ c ∈ w₂, isBlank c = true) ∧
      (∀ c ∈ w₂ ++ v, isValueChar c = true) ∧
      s = property ++ (w₁ ++ ':' :: (w₂ ++ (v ++ ';' :: r))) := by
  rw [propertyValue?] at h
  split at h
  · cases h
  · next r₁ hr₁ =>
    split at h
    · next r₂ hr₂ =>
      rw [after?_eq_some_iff] at hr₁
      obtain ⟨w₁, hw₁, h₁⟩ := afterColon?_eq_some hr₂
      obtain ⟨w₂, hw₂, hv, h₂⟩ := declarationValue?_eq_some h
      exact ⟨w₁, w₂, hw₁, hw₂, hv, by rw [hr₁, h₁, h₂]⟩
    · cases h

/-- A declaration is blanks, a property of the list, a colon and a value up to a semicolon. -/
theorem declaration?_eq_some {properties : List (List Char)} {s r : List Char} {d : Declaration}
    (h : declaration? properties s = some (d, r)) :
    d.lead ≠ [] ∧ (∀ c ∈ d.lead, isBlank c = true) ∧ d.property ∈ properties ∧
      ∃ w₁ w₂, (∀ c ∈ w₁, isBlank c = true) ∧ (∀ c ∈ w₂, isBlank c = true) ∧
        (∀ c ∈ w₂ ++ d.value, isValueChar c = true) ∧
        s = d.lead ++ (d.property ++ (w₁ ++ ':' :: (w₂ ++ (d.value ++ ';' :: r)))) := by
  rw [declaration?] at h
  split at h
  · cases h
  · next lead hlead =>
    obtain ⟨property, hmem, h⟩ := List.exists_of_findSome?_eq_some h
    split at h
    · next v rest hv =>
      obtain ⟨rfl, rfl⟩ := Prod.mk.inj (Option.some.inj h)
      obtain ⟨w₁, w₂, hw₁, hw₂, hval, hs⟩ := propertyValue?_eq_some hv
      refine ⟨hlead, fun c hc => List.mem_takeWhile_imp hc, hmem, w₁, w₂, hw₁, hw₂, hval, ?_⟩
      rw [← hs, List.takeWhile_append_dropWhile]
    · cases h

/-- The text of a declaration that was read in front of the rest `r`. -/
theorem text_of_declaration? {properties : List (List Char)} {t r : List Char} {d : Declaration}
    (h : declaration? properties (t ++ r) = some (d, r)) :
    ∃ w₁ w₂, (∀ c ∈ w₁, isBlank c = true) ∧ (∀ c ∈ w₂, isBlank c = true) ∧
      (∀ c ∈ w₂ ++ d.value, isValueChar c = true) ∧
      t = d.lead ++ (d.property ++ (w₁ ++ ':' :: (w₂ ++ (d.value ++ [';'])))) := by
  obtain ⟨-, -, -, w₁, w₂, hw₁, hw₂, hv, hs⟩ := declaration?_eq_some h
  refine ⟨w₁, w₂, hw₁, hw₂, hv, (List.append_left_inj r).1 ?_⟩
  simpa using hs

theorem consumes_declaration? (properties : List (List Char)) :
    (declaration? properties).Consumes := by
  intro s d r h
  obtain ⟨hne, -, -, w₁, w₂, -, -, -, hs⟩ := declaration?_eq_some h
  refine ⟨d.lead ++ (d.property ++ (w₁ ++ ':' :: (w₂ ++ (d.value ++ [';'])))), ?_, ?_⟩
  · exact List.append_ne_nil_of_left_ne_nil hne _
  · simpa using hs

/-! ### The rem function -/

/-- A declaration with the `rem` function is blanks, a property of letters and hyphens, a colon, and
an argument without a parenthesis between those of `rem`, up to a semicolon. -/
theorem remFunction?_eq_some {s r : List Char} {d : Declaration}
    (h : remFunction? s = some (d, r)) :
    d.lead ≠ [] ∧ (∀ c ∈ d.lead, isBlank c = true) ∧
      (∀ c ∈ d.property, (c.isAlpha || c == '-') = true) ∧ (∀ c ∈ d.value, c ≠ ')') ∧
      ∃ w₁ w₂ w₃, (∀ c ∈ w₁, isBlank c = true) ∧ (∀ c ∈ w₂, isBlank c = true) ∧
        (∀ c ∈ w₃, isBlank c = true) ∧
        s = d.lead ++ (d.property ++ (w₁ ++ ':' ::
          (w₂ ++ ("rem(".toList ++ (d.value ++ ')' :: (w₃ ++ ';' :: r)))))) := by
  simp only [remFunction?] at h
  split at h
  · cases h
  · next lead hlead =>
    split at h
    · cases h
    · next property hprop =>
      split at h
      · cases h
      · next r₁ hr₁ =>
        obtain ⟨w₁, hw₁, h₁⟩ := afterColon?_eq_some hr₁
        obtain ⟨w₂, hw₂, h₂⟩ := exists_blanks_append_trimStart r₁
        split at h
        · cases h
        · next r₂ hr₂ =>
          rw [after?_eq_some_iff] at hr₂
          split at h
          · cases h
          · next q r₃ hr₃ hvalue =>
            obtain ⟨w₃, hw₃, h₃⟩ := exists_blanks_append_trimStart r₃
            split at h
            · next rest hrest =>
              obtain ⟨rfl, rfl⟩ := Prod.mk.inj (Option.some.inj h)
              -- the character that ends the argument is its parenthesis
              have hq : q = ')' := by
                have := List.head?_dropWhile_not (fun c => c != ')') r₂
                rw [hr₃] at this
                simpa using this
              subst hq
              refine ⟨hlead, fun c hc => List.mem_takeWhile_imp hc,
                fun c hc => (List.mem_takeWhile_imp hc :),
                fun c hc => by simpa using List.mem_takeWhile_imp hc,
                w₁, w₂, w₃, hw₁, hw₂, hw₃, ?_⟩
              dsimp only
              rw [← hrest, ← h₃, ← hr₃, List.takeWhile_append_dropWhile, ← hr₂, ← h₂, ← h₁,
                List.takeWhile_append_dropWhile, List.takeWhile_append_dropWhile]
            · cases h
          · cases h

/-- The text of a declaration with the `rem` function that was read in front of the rest `r`. -/
theorem text_of_remFunction? {t r : List Char} {d : Declaration}
    (h : remFunction? (t ++ r) = some (d, r)) :
    (∀ c ∈ d.property, (c.isAlpha || c == '-') = true) ∧
      ∃ w₁ w₂ w₃, (∀ c ∈ w₁, isBlank c = true) ∧ (∀ c ∈ w₂, isBlank c = true) ∧
        (∀ c ∈ w₃, isBlank c = true) ∧
        t = d.lead ++ (d.property ++ (w₁ ++ ':' ::
          (w₂ ++ ("rem(".toList ++ (d.value ++ ')' :: (w₃ ++ [';'])))))) := by
  obtain ⟨-, -, hp, -, w₁, w₂, w₃, hw₁, hw₂, hw₃, hs⟩ := remFunction?_eq_some h
  refine ⟨hp, w₁, w₂, w₃, hw₁, hw₂, hw₃, (List.append_left_inj r).1 ?_⟩
  simpa using hs

theorem consumes_remFunction? : remFunction?.Consumes := by
  intro s d r h
  obtain ⟨hne, -, -, -, w₁, w₂, w₃, -, -, -, hs⟩ := remFunction?_eq_some h
  refine ⟨d.lead ++ (d.property ++ (w₁ ++ ':' ::
    (w₂ ++ ("rem(".toList ++ (d.value ++ ')' :: (w₃ ++ [';'])))))), ?_, ?_⟩
  · exact List.append_ne_nil_of_left_ne_nil hne _
  · simpa using hs

/-! ### Variables -/

/-- A variable is a dollar sign, a letter and the rest of an identifier. -/
theorem variableName?_eq_some {s name r : List Char} (h : variableName? s = some (name, r)) :
    s = name ++ r ∧ ∃ c u, name = '$' :: c :: u ∧ c.isAlpha = true ∧
      ∀ x ∈ u, isIdentChar x = true := by
  unfold variableName? at h
  split at h
  · next c s =>
    split at h
    · next hc =>
      obtain ⟨rfl, rfl⟩ := Prod.mk.inj (Option.some.inj h)
      refine ⟨by simp [List.takeWhile_append_dropWhile], c, _, rfl, hc, ?_⟩
      exact fun x hx => List.mem_takeWhile_imp hx
    · cases h
  · cases h

theorem consumes_variableName? : variableName?.Consumes := by
  intro s name r h
  obtain ⟨hs, c, u, rfl, -, -⟩ := variableName?_eq_some h
  exact ⟨'$' :: c :: u, List.cons_ne_nil _ _, hs⟩

end Stylesheet
end SceneMarkup
