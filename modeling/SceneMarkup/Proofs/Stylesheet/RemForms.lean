import SceneMarkup.Proofs.Stylesheet.Numbers
import SceneMarkup.Proofs.Stylesheet.Statements

/-!
# Two ways to write a size

A size can be written as a plain value or with the `rem` function, and both become an inclusion of
the mixin.  The plain value is converted token by token: a number is freed of its unit, every other
token is kept, and single spaces are put between them.  The argument of the function is taken as one
text, and the letters `px` are taken out wherever they stand.  The two agree on most values and
differ on some: capitals stay in the argument, a name loses its `px`, and the blanks are kept.

## Main definitions

* `declarationLine`, `remCall` — the two ways to write a size.
* `IsPlainToken` — a token that loses the same in both.

## Main results

* `remProperties_declarationLine`, `remFunctions_declarationLine` — what the two rules write.
* `trim_erase_eq_iff` — **the two arguments are the same exactly when single spaces stand between
  the tokens and every token is plain.**
* `rem_forms_agree_iff` — all of this for the two rules.
-/

namespace SceneMarkup
namespace Stylesheet

open Text

/-! ### Tokens -/

theorem px_ne_nil : "px".toList ≠ [] := by decide

/-- A token that loses its unit and nothing else when the letters `px` are taken out: a number
without a unit or with a unit in small letters, or a token without these letters. -/
def IsPlainToken (t : List Char) : Prop :=
  (∀ n, numericToken? t = some n → t = n ∨ t = n ++ "px".toList) ∧
    (numericToken? t = none → contains "px".toList t = false)

theorem erase_px_cons {c : Char} (hc : c ≠ 'p') (s : List Char) :
    erase "px".toList (c :: s) = c :: erase "px".toList s := by
  refine erase_cons_of_not_startsWith ?_
  have hpx : "px".toList = 'p' :: ['x'] := by decide
  rw [hpx, startsWith, after?.eq_3, if_neg (Ne.symm hc)]
  rfl

/-- No number has the letters of the unit in it. -/
theorem erase_px_number_append {n : List Char} (hn : ∀ c ∈ n, isNumberChar c = true)
    (s : List Char) : erase "px".toList (n ++ s) = n ++ erase "px".toList s := by
  induction n with
  | nil => rfl
  | cons c n ih =>
    have hc : c ≠ 'p' := by
      rintro rfl
      exact absurd (hn 'p' List.mem_cons_self) (by decide)
    rw [List.cons_append, erase_px_cons hc, ih fun d hd => hn d (List.mem_cons_of_mem _ hd)]
    rfl

/-- A unit of pixels is taken out exactly when it is written in small letters. -/
theorem erase_px_unit_eq_nil_iff {u : List Char} (hu : u.map fold = "px".toList) :
    erase "px".toList u = [] ↔ u = "px".toList := by
  have hlen : u.length = "px".toList.length := by rw [← hu, List.length_map]
  constructor
  · intro h
    by_contra hne
    have hstart : contains "px".toList u = false := by
      by_contra hcontains
      rw [Bool.not_eq_false, contains_iff_isInfix] at hcontains
      exact hne (hcontains.eq_of_length hlen.symm).symm
    rw [(erase_eq_self_iff px_ne_nil).2 hstart] at h
    rw [h] at hlen
    exact absurd hlen (by decide)
  · rintro rfl
    decide

theorem erase_px_eq_bareToken_iff (t : List Char) :
    erase "px".toList t = bareToken t ↔ IsPlainToken t := by
  rw [bareToken, IsPlainToken]
  cases h : numericToken? t with
  | none => simpa using erase_eq_self_iff px_ne_nil
  | some n =>
    obtain ⟨u, hn, hu⟩ := numericToken?_eq_some_iff.1 h
    have ht := verbatim_number? hn
    have herase : erase "px".toList t = n ↔ u = [] ∨ u = "px".toList := by
      rw [ht, erase_px_number_append (isNumberChar_of_mem_number? hn), List.append_right_eq_self]
      rcases skipPixels_eq_nil hu with rfl | hpx
      · simp [erase, eraseFrom]
      · rw [erase_px_unit_eq_nil_iff hpx]
        refine ⟨Or.inr, fun h => h.resolve_left ?_⟩
        rintro rfl
        exact absurd hpx (by decide)
    rw [Option.getD_some, herase, ht]
    simp

instance (t : List Char) : Decidable (IsPlainToken t) :=
  decidable_of_iff _ (erase_px_eq_bareToken_iff t)

/-! ### Arguments -/

theorem isWordwise_erase_px : IsWordwise (erase "px".toList) :=
  isWordwise_erase px_ne_nil (forall_mem_of_all (by decide))

/-- Lists of texts, at most one for each item on the one side and one for each on the other. -/
theorem forall_eq_of_flatMap_eq_map {α β : Type} {g : α → List β} {h : α → β} {l : List α}
    (hg : ∀ a ∈ l, (g a).length ≤ 1) (heq : l.flatMap g = l.map h) : ∀ a ∈ l, g a = [h a] := by
  have hlen : ∀ l : List α, (∀ a ∈ l, (g a).length ≤ 1) → (l.flatMap g).length ≤ l.length := by
    intro l hl
    induction l with
    | nil => exact Nat.le_refl _
    | cons a l ih =>
      have := hl a List.mem_cons_self
      have := ih fun b hb => hl b (List.mem_cons_of_mem a hb)
      rw [List.flatMap_cons, List.length_append, List.length_cons]
      omega
  induction l with
  | nil => simp
  | cons a l ih =>
    have hl : ∀ b ∈ l, (g b).length ≤ 1 := fun b hb => hg b (List.mem_cons_of_mem a hb)
    rw [List.flatMap_cons, List.map_cons] at heq
    cases ha : g a with
    | nil =>
      -- then the others would have to be more than there are
      rw [ha, List.nil_append] at heq
      have hcount := congrArg List.length heq
      rw [List.length_cons, List.length_map] at hcount
      have := hlen l hl
      omega
    | cons b bs =>
      have hone := hg a List.mem_cons_self
      rw [ha, List.length_cons] at hone
      obtain rfl : bs = [] := List.length_eq_zero_iff.1 (by omega)
      rw [ha, List.singleton_append] at heq
      obtain ⟨rfl, htail⟩ := List.cons.inj heq
      intro x hx
      rcases List.mem_cons.1 hx with rfl | hx
      · exact ha
      · exact ih hl htail x hx

/-- **The letters of the unit taken out of a value as a whole leave what the tokens without their
units make, exactly when single spaces stand between the tokens and every token is plain.** -/
theorem trim_erase_eq_iff (v : List Char) :
    trim (erase "px".toList v) = joinWith [' '] ((words v).map bareToken) ↔
      IsSingleSpaced v ∧ ∀ t ∈ words v, IsPlainToken t := by
  have hplain : ∀ t, IsPlainToken t → erase "px".toList t = bareToken t :=
    fun t => (erase_px_eq_bareToken_iff t).2
  have hkeep : (∀ t ∈ words v, IsPlainToken t) → KeepsWords (erase "px".toList) v := by
    intro h t ht
    obtain ⟨hne, hblank⟩ := not_isBlank_of_mem_words ht
    rw [hplain t (h t ht)]
    exact ⟨bareToken_ne_nil hne, fun c hc => hblank c (mem_of_mem_bareToken hc)⟩
  have hmap : (∀ t ∈ words v, IsPlainToken t) →
      words (erase "px".toList v) = (words v).map bareToken := by
    intro h
    rw [isWordwise_erase_px.words_eq_map (hkeep h)]
    exact List.map_congr_left fun t ht => hplain t (h t ht)
  constructor
  · intro h
    have htokens : ∀ t ∈ words v, IsPlainToken t := by
      have hwords := congrArg words h
      rw [words_trim, words_joinWith_map_bareToken, isWordwise_erase_px.words_eq] at hwords
      -- a token without blanks leaves one token or none
      have hone : ∀ t ∈ words v, (words (erase "px".toList t)).length ≤ 1 := by
        intro t ht
        by_cases hnil : erase "px".toList t = []
        · rw [hnil, words_nil]
          exact Nat.zero_le 1
        · have hblank := (not_isBlank_of_mem_words ht).2
          rw [words_run hnil fun c hc => hblank c ((erase_sublist px_ne_nil t).subset hc)]
          exact Nat.le_refl 1
      intro t ht
      have htoken := forall_eq_of_flatMap_eq_map hone hwords t ht
      rw [← erase_px_eq_bareToken_iff]
      have hblank := (not_isBlank_of_mem_words ht).2
      have hne : erase "px".toList t ≠ [] := by
        intro hnil
        rw [hnil] at htoken
        cases htoken
      rw [words_run hne fun c hc => hblank c ((erase_sublist px_ne_nil t).subset hc)] at htoken
      exact (List.cons.inj htoken).1
    refine ⟨(isWordwise_erase_px.isSingleSpaced_iff (hkeep htokens)).1 ?_, htokens⟩
    rw [IsSingleSpaced, h, hmap htokens]
  · rintro ⟨hspaced, htokens⟩
    have := (isWordwise_erase_px.isSingleSpaced_iff (hkeep htokens)).2 hspaced
    rwa [IsSingleSpaced, hmap htokens] at this

/-! ### Blanks in front of a value -/

theorem contains_cons_of_ne {a b : Char} (h : b ≠ a) (w s : List Char) :
    contains (a :: w) (b :: s) = contains (a :: w) s := by
  have hstart : startsWith (a :: w) (b :: s) = false := by
    rw [startsWith, after?.eq_3, if_neg (Ne.symm h)]
    rfl
  rw [contains_cons, hstart, Bool.false_or]

theorem occurs_cons_of_none {α : Type} {p : Recogniser α} {c : Char} {s : List Char}
    (h : p (c :: s) = none) : occurs p (c :: s) = occurs p s := by
  rw [occurs, first?, h, occurs]
  cases first? p s <;> rfl

/-- A blank in front of a value neither is nor begins anything that the value is searched for. -/
theorem skipReason?_cons_of_isBlank {b : Char} (hb : isBlank b = true) (v : List Char) :
    skipReason? (b :: v) = skipReason? v := by
  obtain ⟨hr, hc, hdollar, hsharp, hpercent, hdigit⟩ : b ≠ 'r' ∧ b ≠ 'c' ∧ b ≠ '$' ∧ b ≠ '#' ∧
      b ≠ '%' ∧ isDigit b = false :=
    forall_blank (P := fun b => b ≠ 'r' ∧ b ≠ 'c' ∧ b ≠ '$' ∧ b ≠ '#' ∧ b ≠ '%' ∧
      isDigit b = false) (by decide) hb
  have hrem : contains "rem(".toList (b :: v) = contains "rem(".toList v :=
    contains_cons_of_ne (a := 'r') hr "em(".toList v
  have hcalc : contains "calc(".toList (b :: v) = contains "calc(".toList v :=
    contains_cons_of_ne (a := 'c') hc "alc(".toList v
  have hbare : bareValue (b :: v) = b :: bareValue v := by
    have hvariable : variableName? (b :: v) = none := by
      rw [variableName?.eq_def]
      split
      · next h => exact absurd (List.cons.inj h).1 hdollar
      · rfl
    rw [bareValue, replaceAll_cons_of_none hvariable, replaceAll_cons_of_none, ← bareValue]
    rw [hexColor?.eq_def]
    split
    · next h => exact absurd (List.cons.inj h).1 hsharp
    · rfl
  have hunit : ∀ units, digitWithUnit? units (b :: bareValue v) = none := by
    intro units
    rw [digitWithUnit?, hdigit]
    rfl
  have hpercent' : (b :: bareValue v).contains '%' = (bareValue v).contains '%' := by
    rw [List.contains_cons, beq_false_of_ne (Ne.symm hpercent), Bool.false_or]
  rw [skipReason?, skipReason?, hrem, hcalc, hbare, trim_cons_of_isBlank hb, hpercent',
    occurs_cons_of_none (hunit _), occurs_cons_of_none (hunit _)]

/-- Blanks in front of a value do not change its argument. -/
theorem remArgument?_blanks_append {w : List Char} (hw : ∀ c ∈ w, isBlank c = true)
    (v : List Char) : remArgument? (w ++ v) = remArgument? v := by
  have hskip : skipReason? (w ++ v) = skipReason? v := by
    induction w with
    | nil => rfl
    | cons b w ih =>
      rw [List.cons_append, skipReason?_cons_of_isBlank (hw b List.mem_cons_self),
        ih fun c hc => hw c (List.mem_cons_of_mem b hc)]
  have hvalue : numericValue? (w ++ v) = numericValue? v := by
    rw [numericValue?, words_blanks_append hw, numericValue?]
  rw [remArgument?, hskip, numericValue?_trim, hvalue, remArgument?, numericValue?_trim]

theorem remArgument?_withoutLead (v : List Char) :
    remArgument? (withoutLead v) = remArgument? v := by
  obtain ⟨w, hw, hs⟩ := exists_blanks_append_withoutLead v
  conv => rhs; rw [hs, remArgument?_blanks_append hw]

/-! ### The two rules -/

/-- A declaration on a line of its own. -/
def declarationLine (p v : List Char) : List Char :=
  "\n  ".toList ++ (p ++ (": ".toList ++ (v ++ ";".toList)))

/-- A value in the parentheses of the `rem` function. -/
def remCall (v : List Char) : List Char := "rem(".toList ++ (v ++ ")".toList)

/-- An inclusion of the mixin on a line of its own. -/
def mixinLine (p w : List Char) : List Char := "\n  ".toList ++ mixin p w

theorem mixinLine_inj {p w w' : List Char} : mixinLine p w = mixinLine p w' ↔ w = w' := by
  constructor
  · intro h
    have hmixin := List.append_cancel_left h
    unfold mixin at hmixin
    exact List.append_cancel_left (List.append_cancel_right hmixin)
  · rintro rfl
    rfl

theorem lead_ne_nil : "\n  ".toList ≠ [] := by decide

theorem isBlank_lead : ∀ c ∈ "\n  ".toList, isBlank c = true :=
  forall_mem_of_all (by decide)

/-- The rule of sizes converts a declaration of a listed property that stands by itself. -/
theorem remProperties_declarationLine {names : List String}
    (hcolon : ∀ q ∈ propertyOrder names, ':' ∉ q.toList) {p : String}
    (hp : p ∈ propertyOrder names) {v w : List Char} (hv : ∀ c ∈ v, isValueChar c = true)
    (hw : remArgument? v = some w) :
    (remProperties names).revise (declarationLine p.toList v) = mixinLine p.toList w := by
  have htext : declarationLine p.toList v
      = "\n  ".toList ++ (p.toList ++ ([] ++ ':' :: (' ' :: v ++ ';' :: []))) := rfl
  have hvalue : ∀ c ∈ ' ' :: v, isValueChar c = true := by
    rintro c (_ | ⟨_, hc⟩)
    · rfl
    · exact hv c hc
  have hread := declaration?_append (isPropertyName_of_mem hcolon) lead_ne_nil isBlank_lead
    (List.mem_map_of_mem hp) (w := []) (by simp) (List.cons_ne_nil ' ' v) hvalue []
  have harg : remArgument? (withoutLead (' ' :: v)) = some w := by
    have hblank := remArgument?_blanks_append (w := [' ']) (by simp) v
    rw [List.singleton_append] at hblank
    rw [remArgument?_withoutLead, hblank, hw]
  rw [← htext] at hread
  rw [← List.append_nil (declarationLine p.toList v)] at hread ⊢
  rw [revise_remProperties, convert, replaceAll_append_of_some ?_ hread, replaceAll_nil,
    List.append_nil]
  · simp only [harg]
    rfl
  · exact List.append_ne_nil_of_left_ne_nil lead_ne_nil _

/-- The rule of the function takes any argument as it stands, without the letters of the unit. -/
theorem remFunctions_declarationLine {p v : List Char} (hpne : p ≠ [])
    (hp : ∀ c ∈ p, (c.isAlpha || c == '-') = true) (hvne : v ≠ []) (hv : ')' ∉ v) :
    remFunctions.revise (declarationLine p (remCall v))
      = mixinLine p (trim (erase "px".toList v)) := by
  have htext : declarationLine p (remCall v) = "\n  ".toList ++ (p ++ ([] ++ ':' ::
      ([' '] ++ ("rem(".toList ++ (v ++ ')' :: ([] ++ ';' :: [])))))) := by
    unfold declarationLine remCall
    rw [List.append_assoc, List.append_assoc]
    rfl
  have hread : remFunction? ("\n  ".toList ++ (p ++ ([] ++ ':' ::
      ([' '] ++ ("rem(".toList ++ (v ++ ')' :: ([] ++ ';' :: []))))))) = some (⟨_, p, v⟩, []) :=
    remFunction?_append lead_ne_nil isBlank_lead hpne hp (by simp) (by simp) (by simp) hvne hv []
  rw [← htext] at hread
  rw [← List.append_nil (declarationLine p (remCall v))] at hread ⊢
  rw [revise_remFunctions, replaceAll_append_of_some ?_ hread, replaceAll_nil, List.append_nil]
  · rfl
  · exact List.append_ne_nil_of_left_ne_nil lead_ne_nil _

/-- **The two ways to write a size.**  For a listed property of letters and hyphens, where no listed
name has a colon, and a value that need not stay as written and has a number in it, the rule of
sizes writes the mixin with the converted tokens, and the rule of the `rem` function writes it with
the text without the letters `px`.  The two are the same exactly when single spaces stand between
the tokens of the value and each token is plain. -/
theorem rem_forms_agree_iff {names : List String} {p : String} (hp : p ∈ propertyOrder names)
    (hcolon : ∀ q ∈ propertyOrder names, ':' ∉ q.toList)
    (hletters : ∀ c ∈ p.toList, (c.isAlpha || c == '-') = true) {v w : List Char}
    (hv : ∀ c ∈ v, c ≠ ')' ∧ c ≠ ';' ∧ c ≠ '\x7b' ∧ c ≠ '\x7d')
    (hskip : skipReason? v = none) (hw : numericValue? (trim v) = some w) :
    (remProperties names).revise (declarationLine p.toList v) = mixinLine p.toList w ∧
    remFunctions.revise (declarationLine p.toList (remCall v))
      = mixinLine p.toList (trim (erase "px".toList v)) ∧
    (remFunctions.revise (declarationLine p.toList (remCall v))
        = (remProperties names).revise (declarationLine p.toList v) ↔
      IsSingleSpaced v ∧ ∀ t ∈ words v, IsPlainToken t) := by
  have hchars : ∀ c ∈ v, isValueChar c = true := by
    intro c hc
    obtain ⟨-, hsemi, hopen, hclose⟩ := hv c hc
    simp only [isValueChar, Bool.not_eq_true', Bool.or_eq_false_iff, beq_eq_false_iff_ne]
    exact ⟨⟨hsemi, hopen⟩, hclose⟩
  have harg : remArgument? v = some w := by
    rw [remArgument?, hskip]
    exact hw
  have hvne : v ≠ [] := by
    rintro rfl
    cases hw
  have hproperties := remProperties_declarationLine hcolon hp hchars harg
  have hfunctions := remFunctions_declarationLine (mem_propertyOrder_iff.1 hp).1 hletters hvne
    fun h => (hv ')' h).1 rfl
  refine ⟨hproperties, hfunctions, ?_⟩
  rw [numericValue?_trim] at hw
  obtain ⟨-, rfl⟩ := numericValue?_eq_some_iff.1 hw
  rw [hproperties, hfunctions, mixinLine_inj, trim_erase_eq_iff]

/-- A number with its unit, a variable and a number without: both rules write the same. -/
theorem rem_forms_agree_plain :
    remFunctions.revise (declarationLine "gap".toList (remCall "10px $gap 4".toList))
      = (remProperties ["gap"]).revise (declarationLine "gap".toList "10px $gap 4".toList) :=
  (@rem_forms_agree_iff ["gap"] "gap" (by decide) (by decide) (forall_mem_of_all (by decide))
    "10px $gap 4".toList "10 $gap 4".toList (forall_mem_of_all (by decide)) (by decide +kernel)
    (by decide +kernel)).2.2.2 ⟨by decide +kernel, by decide +kernel⟩

/-- A variable named after pixels loses the letters in the argument of the function. -/
theorem rem_forms_ne_of_named_px :
    skipReason? "$px-gap 4px".toList = none ∧
      numericValue? (trim "$px-gap 4px".toList) = some "$px-gap 4".toList ∧
      (remProperties ["gap"]).revise "\n  gap: $px-gap 4px;".toList
        = "\n  @include rem(gap, $px-gap 4);".toList ∧
      remFunctions.revise "\n  gap: rem($px-gap 4px);".toList
        ≠ "\n  @include rem(gap, $px-gap 4);".toList := by
  decide +kernel

end Stylesheet
end SceneMarkup
