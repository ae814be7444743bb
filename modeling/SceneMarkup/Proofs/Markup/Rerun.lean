import SceneMarkup.Proofs.Markup.Headings
import SceneMarkup.Proofs.Markup.Items
import SceneMarkup.Proofs.Markup.Progress
import SceneMarkup.Proofs.Text.Runs

/-!
# Markup run through the house rules again

A second run may find something to do: the rule of icons keeps the capitals that it finds in a class
without quotes, and only the quotes which it adds let the next run see a class attribute to spell in
kebab case.  A text is kept exactly when it is settled, that is, when none of the rules finds
anything to do in it.  The rank sees to it that no rule takes back what another one did.

## Main definitions

* `IsSettled` — a markup in which no house rule finds anything to do.

## Main results

* `classes_of_revise_eq_self` — a text that the rule of class names keeps has each class attribute
  as the rule writes it.
* `normalize_eq_self_iff` — **the house rules keep exactly the settled texts.**
* `rerun_eq_iff_isSettled` — a second run changes nothing exactly when the first one left a settled
  text.
-/

namespace SceneMarkup
namespace Markup

open Text

/-- A markup in which no house rule finds anything to do. -/
structure IsSettled (s : List Char) : Prop where
  /-- Each class attribute is written in kebab case. -/
  classes : ∀ a ∈ occurrences classAttribute? s, kebabAttribute a.value = a.text
  /-- No anchor has a target. -/
  anchors : ∀ a ∈ occurrences anchor? s, a.value.target = []
  /-- No icon is to be renamed. -/
  icons : ∀ i ∈ occurrences icon? s, standardAttributes? i.value = none
  /-- Each button has a type. -/
  buttons : ∀ b ∈ occurrences button? s, hasType b.value = true
  /-- No icon is to be hidden. -/
  hidden : ∀ i ∈ occurrences icon? s, needsHiding i.value = false
  /-- No two items belong together. -/
  items : ∀ r ∈ runs (segments s).1, r.others = []
  /-- There is at most one heading of level one. -/
  headings : (values headingTag? s).countP HeadingTag.isOpening ≤ 1

instance (s : List Char) : Decidable (IsSettled s) :=
  decidable_of_iff
    ((∀ a ∈ occurrences classAttribute? s, kebabAttribute a.value = a.text) ∧
      (∀ a ∈ occurrences anchor? s, a.value.target = []) ∧
      (∀ i ∈ occurrences icon? s, standardAttributes? i.value = none) ∧
      (∀ b ∈ occurrences button? s, hasType b.value = true) ∧
      (∀ i ∈ occurrences icon? s, needsHiding i.value = false) ∧
      (∀ r ∈ runs (segments s).1, r.others = []) ∧
      (values headingTag? s).countP HeadingTag.isOpening ≤ 1)
    ⟨fun ⟨h₁, h₂, h₃, h₄, h₅, h₆, h₇⟩ => ⟨h₁, h₂, h₃, h₄, h₅, h₆, h₇⟩,
      fun h => ⟨h.1, h.2, h.3, h.4, h.5, h.6, h.7⟩⟩

/-! ### Class names -/

theorem isUnmade_isQuote : IsUnmade isQuote where
  ascii := by
    intro c h
    rcases eq_quote_or_eq_tick h with rfl | rfl <;> decide
  toLower := by decide
  hyphen := by decide
  made := by decide

/-- Kebab case adds no quotes to a value. -/
theorem not_isQuote_of_mem_kebabWords {v : List Char} (h : ∀ c ∈ v, isQuote c = false) :
    ∀ c ∈ joinWith [' '] (kebabWords v), isQuote c = false := by
  have hle := countP_kebabWords_le isUnmade_isQuote (by decide) v
  have hzero : v.countP isQuote = 0 := List.countP_eq_zero.2 fun c hc => by simp [h c hc]
  rw [hzero] at hle
  intro c hc
  have := List.countP_eq_zero.1 (Nat.le_zero.1 hle) c hc
  simpa using this

/-- A class attribute that stands where its spelling in kebab case stands is written so. -/
theorem eq_kebabAttribute {t r r' : List Char} {a : ClassAttribute}
    (h : classAttribute? (t ++ r) = some (a, r)) (heq : kebabAttribute a ++ r' = t ++ r) :
    kebabAttribute a = t ∧ r' = r := by
  obtain ⟨-, -, quote, t', ⟨hquote, hvalue, w₁, w₂, q, hw₁, hw₂, hq, rfl⟩, hs⟩ :=
    classAttribute?_eq_some h
  obtain rfl : t = a.lead :: ("class".toList ++
      (w₁ ++ '=' :: (w₂ ++ quote :: (a.value ++ [q])))) := List.append_cancel_right hs
  have hnone : ∀ c ∈ a.value, isQuote c = false := hvalue
  have hlit : "class=".toList = "class".toList ++ ['='] := by decide
  rw [kebabAttribute_eq, hlit] at heq ⊢
  have hbody : [] ++ '=' :: ([] ++ '"' :: (joinWith [' '] (kebabWords a.value) ++ '"' :: r'))
      = w₁ ++ '=' :: (w₂ ++ quote :: (a.value ++ q :: r)) := by
    simpa using heq
  -- the blanks, the quotes and the value are what they are in the spelling
  have hblank : ∀ {w : List Char}, (∀ c ∈ w, isBlank c = true) → ∀ c ∈ w, (!isBlank c) = false :=
    fun h c hc => by simp [h c hc]
  obtain ⟨rfl, -, hassigned⟩ := append_cons_inj (P := fun c => !isBlank c) (by simp) (hblank hw₁)
    (by decide) (by decide) hbody
  have hquote' : (!isBlank quote) = true := by
    rcases eq_quote_or_eq_tick (c := quote) hquote with rfl | rfl <;> decide
  obtain ⟨rfl, rfl, hquoted⟩ := append_cons_inj (P := fun c => !isBlank c) (by simp) (hblank hw₂)
    (by decide) hquote' hassigned
  obtain ⟨hjoined, rfl, hrest⟩ := append_cons_inj (not_isQuote_of_mem_kebabWords hnone) hnone
    (by decide) hq hquoted
  refine ⟨?_, hrest⟩
  rw [hjoined]
  simp

/-- A text that the rule of class names keeps has each class attribute as the rule writes it. -/
theorem classes_of_revise_eq_self {s : List Char} (h : kebabClasses.revise s = s) :
    ∀ a ∈ occurrences classAttribute? s, kebabAttribute a.value = a.text := by
  rw [forall_occurrences_iff (Q := fun t a => kebabAttribute a = t)]
  induction s using text_induction consumes_classAttribute? with
  | nil => simp
  | plain c s hn ih =>
    have htail : kebabClasses.revise s = s :=
      (List.cons.inj ((replaceAll_cons_of_none hn).symm.trans h)).2
    intro t a hm
    rw [pieces_cons_of_none hn] at hm
    rcases List.mem_cons.1 hm with hm | hm
    · cases hm
    · exact ih htail t a hm
  | found t a r ht hr ih =>
    obtain ⟨hta, htail⟩ := eq_kebabAttribute hr ((replaceAll_append_of_some ht hr).symm.trans h)
    intro t' a' hm
    rw [pieces_append_of_some ht hr] at hm
    rcases List.mem_cons.1 hm with hm | hm
    · obtain ⟨rfl, rfl⟩ := Piece.found.inj hm
      exact hta
    · exact ih htail t' a' hm

/-! ### Each rule -/

theorem rank_kebabClasses_le (s : List Char) : rank (kebabClasses.revise s) ≤ rank s := by
  have h := replaceAll_le consumes_classAttribute? (f := fun _ a => kebabAttribute a) (m := rank)
    (fun _ _ _ h => rank_kebabAttribute_le h) s [] []
  rw [List.nil_append, List.append_nil, List.nil_append, List.append_nil] at h
  exact h

theorem kebabClasses_eq_self {s : List Char}
    (h : ∀ a ∈ occurrences classAttribute? s, kebabAttribute a.value = a.text) :
    kebabClasses.revise s = s :=
  replaceAll_eq_self h

theorem emptyHref_eq_self {s : List Char}
    (h : ∀ a ∈ occurrences anchor? s, a.value.target = []) : emptyHref.revise s = s := by
  refine replaceAll_eq_self fun a ha => ?_
  simp [h a ha]

theorem emptyHref_idle_or_lowers (s : List Char) :
    (∀ a ∈ occurrences anchor? s, a.value.target = []) ∨ rank (emptyHref.revise s) < rank s := by
  refine replaceAll_idle_or_lowers consumes_anchor? (I := fun a => a.target = []) ?_ s
  intro t a r h
  by_cases hne : a.target = []
  · exact Or.inl ⟨hne, by simp [hne]⟩
  · refine Or.inr fun x y => ?_
    have hempty : a.target.isEmpty = false := by simpa using hne
    rw [hempty, if_neg Bool.false_ne_true]
    exact rank_blanked_lt h hne x y

theorem standardIcons_eq_self {s : List Char}
    (h : ∀ i ∈ occurrences icon? s, standardAttributes? i.value = none) :
    standardIcons.revise s = s := by
  refine replaceAll_eq_self fun i hi => ?_
  simp only [h i hi]

theorem standardIcons_idle_or_lowers (s : List Char) :
    (∀ i ∈ occurrences icon? s, standardAttributes? i.value = none) ∨
      rank (standardIcons.revise s) < rank s := by
  refine replaceAll_idle_or_lowers consumes_icon?
    (I := fun attrs => standardAttributes? attrs = none) ?_ s
  intro t attrs r h
  cases hs : standardAttributes? attrs with
  | none => exact Or.inl ⟨rfl, rfl⟩
  | some attrs' => exact Or.inr fun x y => rank_standardAttributes_lt h hs x y

theorem typedButtons_eq_self {s : List Char}
    (h : ∀ b ∈ occurrences button? s, hasType b.value = true) : typedButtons.revise s = s := by
  refine replaceAll_eq_self fun b hb => ?_
  simp [h b hb]

theorem typedButtons_idle_or_lowers (s : List Char) :
    (∀ b ∈ occurrences button? s, hasType b.value = true) ∨
      rank (typedButtons.revise s) < rank s := by
  refine replaceAll_idle_or_lowers consumes_button? (I := fun attrs => hasType attrs = true) ?_ s
  intro t attrs r h
  cases ht : hasType attrs with
  | true => exact Or.inl ⟨rfl, rfl⟩
  | false => exact Or.inr fun x y => rank_typedButton_lt h x y

theorem hiddenIcons_eq_self {s : List Char}
    (h : ∀ i ∈ occurrences icon? s, needsHiding i.value = false) : hiddenIcons.revise s = s := by
  refine replaceAll_eq_self fun i hi => ?_
  simp [h i hi]

theorem hiddenIcons_idle_or_lowers (s : List Char) :
    (∀ i ∈ occurrences icon? s, needsHiding i.value = false) ∨
      rank (hiddenIcons.revise s) < rank s := by
  refine replaceAll_idle_or_lowers consumes_icon?
    (I := fun attrs => needsHiding attrs = false) ?_ s
  intro t attrs r h
  cases hn : needsHiding attrs with
  | false => exact Or.inl ⟨rfl, rfl⟩
  | true => exact Or.inr fun x y => rank_hiddenTag_lt h x y

/-! ### All rules -/

/-- The house rules, one inside the other. -/
theorem normalize_eq (s : List Char) :
    normalize s = singleHeading.revise (groupItems (hiddenIcons.revise (typedButtons.revise
      (standardIcons.revise (emptyHref.revise (kebabClasses.revise s)))))) := by
  simp only [normalize, houseRules, Pipeline.apply_cons, Pipeline.apply_nil]
  rfl

/-- A settled text is kept. -/
theorem normalize_of_isSettled {s : List Char} (h : IsSettled s) : normalize s = s := by
  rw [normalize_eq, kebabClasses_eq_self h.classes, emptyHref_eq_self h.anchors,
    standardIcons_eq_self h.icons, typedButtons_eq_self h.buttons, hiddenIcons_eq_self h.hidden,
    groupItems_eq_self h.items, singleHeading_eq_self h.headings]

/-- A rule that is idle or lowers the rank does not raise it. -/
theorem rank_le_of_idle_or_lowers {P : Prop} {s t : List Char} (hidle : P → t = s)
    (h : P ∨ rank t < rank s) : rank t ≤ rank s := by
  rcases h with h | h
  · rw [hidle h]
  · exact h.le

/-- A text that is kept is settled: the rank goes down from rule to rule, and it would not come back
to where it was if one of the rules lowered it. -/
theorem isSettled_of_normalize_eq_self {s : List Char} (h : normalize s = s) : IsSettled s := by
  rw [normalize_eq] at h
  have hitems : ∀ t, (∀ r ∈ runs (segments t).1, r.others = []) ∨ rank (groupItems t) < rank t :=
    fun t => (groupItems_idle_or_lowers t).imp_right rank_lt_of_fleeting_lt
  have hheadings : ∀ t, (values headingTag? t).countP HeadingTag.isOpening ≤ 1 ∨
      rank (singleHeading.revise t) < rank t :=
    fun t => (singleHeading_idle_or_lowers t).imp_right rank_lt_of_fleeting_lt
  have h₁ := rank_kebabClasses_le s
  generalize hs₁ : kebabClasses.revise s = s₁ at h h₁
  have h₂ := (rank_le_of_idle_or_lowers emptyHref_eq_self (emptyHref_idle_or_lowers s₁)).trans h₁
  generalize hs₂ : emptyHref.revise s₁ = s₂ at h h₂
  have h₃ := (rank_le_of_idle_or_lowers standardIcons_eq_self
    (standardIcons_idle_or_lowers s₂)).trans h₂
  generalize hs₃ : standardIcons.revise s₂ = s₃ at h h₃
  have h₄ := (rank_le_of_idle_or_lowers typedButtons_eq_self
    (typedButtons_idle_or_lowers s₃)).trans h₃
  generalize hs₄ : typedButtons.revise s₃ = s₄ at h h₄
  have h₅ := (rank_le_of_idle_or_lowers hiddenIcons_eq_self
    (hiddenIcons_idle_or_lowers s₄)).trans h₄
  generalize hs₅ : hiddenIcons.revise s₄ = s₅ at h h₅
  have h₆ := (rank_le_of_idle_or_lowers groupItems_eq_self (hitems s₅)).trans h₅
  generalize hs₆ : groupItems s₅ = s₆ at h h₆
  -- from the last rule back to the first, each was idle
  have hlast := (hheadings s₆).resolve_right (by rw [h]; exact h₆.not_gt)
  obtain rfl : s₆ = s := by rw [← singleHeading_eq_self hlast, h]
  have hgroup := (hitems s₅).resolve_right (by rw [hs₆]; exact h₅.not_gt)
  obtain rfl : s₅ = s₆ := by rw [← groupItems_eq_self hgroup, hs₆]
  have hhidden := (hiddenIcons_idle_or_lowers s₄).resolve_right (by rw [hs₅]; exact h₄.not_gt)
  obtain rfl : s₄ = s₅ := by rw [← hiddenIcons_eq_self hhidden, hs₅]
  have hbuttons := (typedButtons_idle_or_lowers s₃).resolve_right (by rw [hs₄]; exact h₃.not_gt)
  obtain rfl : s₃ = s₄ := by rw [← typedButtons_eq_self hbuttons, hs₄]
  have hicons := (standardIcons_idle_or_lowers s₂).resolve_right (by rw [hs₃]; exact h₂.not_gt)
  obtain rfl : s₂ = s₃ := by rw [← standardIcons_eq_self hicons, hs₃]
  have hanchors := (emptyHref_idle_or_lowers s₁).resolve_right (by rw [hs₂]; exact h₁.not_gt)
  obtain rfl : s₁ = s₂ := by rw [← emptyHref_eq_self hanchors, hs₂]
  exact ⟨classes_of_revise_eq_self hs₁, hanchors, hicons, hbuttons, hhidden, hgroup, hlast⟩

/-- **The house rules keep exactly the settled texts.** -/
theorem normalize_eq_self_iff (s : List Char) : normalize s = s ↔ IsSettled s :=
  ⟨isSettled_of_normalize_eq_self, normalize_of_isSettled⟩

/-- A second run of the house rules changes nothing exactly when the first one left a settled
text. -/
theorem rerun_eq_iff_isSettled (s : List Char) :
    normalize (normalize s) = normalize s ↔ IsSettled (normalize s) :=
  normalize_eq_self_iff (normalize s)

/-- The first run quotes the class of an icon, the second one spells it in kebab case. -/
theorem rerun_ne_of_unquoted :
    normalize (normalize "<i CLASS=iconI>".toList) ≠ normalize "<i CLASS=iconI>".toList := by
  decide +kernel

end Markup
end SceneMarkup
