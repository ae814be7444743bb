import SceneMarkup.Markup.Icon
import SceneMarkup.Proofs.Markup.Classes
import SceneMarkup.Proofs.Markup.KebabNames
import SceneMarkup.Proofs.Text.Search
import SceneMarkup.Proofs.Text.Words

/-!
# Names of icons

The rule for icons makes a new class of a class that mentions an icon.  What it makes of a name in
kebab case is in kebab case again: taking a word out of a name may leave hyphens behind, and these
are squeezed and trimmed.  The new class mentions no icon any more, since no letters meet where
hyphens go.

## Main results

* `IsKebab.hyphen` — two names in kebab case with a hyphen between them are one.
* `isKebab_iconName` — the name of an icon.
* `isKebab_of_mem_standardWords` — **the standard form of classes in kebab case.**
* `exists_rounds_eraseIcon` — taking the word out comes to an end.
* `mentionsIcon_of_mem_standardWords` — **no class in the standard form mentions an icon.**
* `iconName_of_any_class` — **what the name of an icon looks like, whatever the class.**
-/

namespace SceneMarkup
namespace Markup

open Text

theorem isKebab_iff {s : List Char} : IsKebab s ↔ kebab s = s :=
  ⟨kebab_of_isKebab, fun h => h ▸ isKebab_kebab s⟩

/-- Two names in kebab case with a hyphen between them are a name in kebab case. -/
theorem IsKebab.hyphen {u v : List Char} (hu : IsKebab u) (hv : IsKebab v) (hune : u ≠ [])
    (hvne : v ≠ []) : IsKebab (u ++ '-' :: v) where
  lower := by
    intro c hc
    rcases List.mem_append.1 hc with hc | hc
    · exact hu.lower c hc
    · rcases List.mem_cons.1 hc with rfl | hc
      · exact ⟨by decide +kernel, by decide, by decide⟩
      · exact hv.lower c hc
  joined := by
    intro c hc
    rcases List.mem_append.1 hc with hc | hc
    · exact hu.joined c hc
    · rcases List.mem_cons.1 hc with rfl | hc
      · decide
      · exact hv.joined c hc
  squeezed := by
    have hright : IsSqueezed ('-' :: v) :=
      List.isChain_cons.2 ⟨fun d hd hboth => hv.first (hboth.2 ▸ hd), hv.squeezed⟩
    exact List.isChain_append.2
      ⟨hu.squeezed, hright, fun c hc d _ hboth => hu.last (hboth.1 ▸ hc)⟩
  first := by rw [List.head?_append_of_ne_nil _ hune]; exact hu.first
  last := by
    rw [List.getLast?_append_of_ne_nil _ (List.cons_ne_nil _ _), List.getLast?_cons_of_ne_nil hvne]
    exact hv.last

/-- What is left of lower-case characters that separate no words, with its hyphens squeezed and
trimmed. -/
theorem isKebab_trimHyphens {s : List Char} (hlower : ∀ c ∈ s, IsLower c)
    (hjoined : ∀ c ∈ s, isSeparator c = false) : IsKebab (trimHyphens (squeezeHyphens s)) where
  lower := fun c hc =>
    hlower c (((trimHyphens_sublist _).trans (squeezeHyphens_sublist _)).subset hc)
  joined := fun c hc =>
    hjoined c (((trimHyphens_sublist _).trans (squeezeHyphens_sublist _)).subset hc)
  squeezed := List.IsChain.infix (isSqueezed_squeezeHyphens s) (isInfix_trimHyphens _)
  first := (ends_trimHyphens _).1
  last := (ends_trimHyphens _).2

/-- The name of an icon is what is left of its class, and never empty. -/
theorem iconName_cases (w : List Char) : iconName w ≠ [] ∧ (iconName w = "default".toList ∨
    iconName w = trimHyphens (squeezeHyphens (eraseIcon w))) := by
  unfold iconName
  split
  · exact ⟨by decide, Or.inl rfl⟩
  · next h => exact ⟨h, Or.inr rfl⟩

theorem iconName_ne_nil (w : List Char) : iconName w ≠ [] := (iconName_cases w).1

/-- The name of an icon is in kebab case when its class is. -/
theorem isKebab_iconName {w : List Char} (h : IsKebab w) : IsKebab (iconName w) := by
  have hleft : IsKebab (trimHyphens (squeezeHyphens (eraseIcon w))) :=
    isKebab_trimHyphens (fun c hc => h.lower c ((eraseIcon_sublist w).subset hc))
      fun c hc => h.joined c ((eraseIcon_sublist w).subset hc)
  rcases (iconName_cases w).2 with h | h
  · rw [h]
    exact isKebab_iff.2 (by decide)
  · rw [h]
    exact hleft

theorem isKebab_iconClass {w : List Char} (h : IsKebab w) : IsKebab (iconClass (iconName w)) := by
  have hico : IsKebab "ico".toList := isKebab_iff.2 (by decide)
  exact hico.hyphen (isKebab_iconName h) (by decide) (iconName_ne_nil w)

theorem isKebab_standardWord {w : List Char} (h : IsKebab w) : IsKebab (standardWord w) := by
  rw [standardWord]
  split
  · exact isKebab_iconClass h
  · exact h

/-- The standard form of classes in kebab case is in kebab case. -/
theorem isKebab_of_mem_standardWords {ws : List (List Char)} (h : ∀ w ∈ ws, IsKebab w) :
    ∀ w ∈ standardWords ws, IsKebab w :=
  forall_mem_standardWords (fun w hw => isKebab_standardWord (h w hw))
    (isKebab_iff.2 kebab_iconSize)

/-- Names in kebab case joined by blanks are the words of the text. -/
theorem mem_of_mem_words_joinWith {ws : List (List Char)} (h : ∀ w ∈ ws, IsKebab w)
    {x : List Char} (hx : x ∈ words (joinWith [' '] ws)) : x ∈ ws := by
  rw [words_joinWith, List.mem_flatMap] at hx
  obtain ⟨w, hw, hx⟩ := hx
  have hblank : ∀ c ∈ w, isBlank c = false := by
    intro c hc
    have := (h w hw).joined c hc
    rw [isSeparator, Bool.or_eq_false_iff] at this
    exact this.2
  cases w with
  | nil => cases hx
  | cons c w =>
    rw [words_run (List.cons_ne_nil c w) hblank, List.mem_singleton] at hx
    rwa [hx]

/-! ### Classes that mention no icon -/

theorem startsWith_squeezeHyphens {w : List Char} (hw : '-' ∉ w) (s : List Char) :
    startsWith w (squeezeHyphens s) = startsWith w s := by
  induction w generalizing s with
  | nil => simp [startsWith]
  | cons a w ih =>
    rw [List.mem_cons, not_or] at hw
    have hnone : ∀ s, s.head? = some '-' → startsWith (a :: w) s = false := by
      intro s hs
      obtain ⟨s, rfl⟩ := List.head?_eq_some_iff.1 hs
      simp [startsWith, after?, Ne.symm hw.1]
    cases s with
    | nil => rfl
    | cons c s =>
      by_cases hc : c = '-'
      · subst hc
        rw [hnone _ (head?_squeezeHyphens _), hnone _ rfl]
      · have hkept : squeezeHyphens (c :: s) = c :: squeezeHyphens s := by
          simp [squeezeHyphens, hc]
        have := ih hw.2 s
        rw [hkept]
        simp only [startsWith, after?] at this ⊢
        split
        · exact this
        · rfl

/-- Squeezing hyphens brings no letters together. -/
theorem contains_squeezeHyphens {w : List Char} (hw : '-' ∉ w) (hne : w ≠ []) (s : List Char) :
    contains w (squeezeHyphens s) = contains w s := by
  induction s with
  | nil => rfl
  | cons c s ih =>
    have hstart := startsWith_squeezeHyphens hw (c :: s)
    rw [squeezeHyphens] at hstart ⊢
    split
    · next hc =>
      obtain rfl : c = '-' := by simpa using And.left (Bool.and_eq_true_iff.1 hc)
      have hcut := contains_append_cons hw [] s
      have hempty : w.isEmpty = false := by simpa using hne
      rw [List.nil_append, contains_nil, hempty, Bool.false_or] at hcut
      rw [ih, hcut]
    · next hc =>
      rw [if_neg hc] at hstart
      rw [contains_cons, hstart, ih, contains_cons]

/-- The word `icon` is taken out in rounds, as long as the text has it; each round takes out four
letters or more. -/
theorem exists_rounds_eraseIcon (s : List Char) : ∃ n, eraseIcon s = (erase "icon".toList)^[n] s ∧
    (∀ k < n, contains "icon".toList ((erase "icon".toList)^[k] s) = true) ∧
    contains "icon".toList (eraseIcon s) = false ∧ 4 * n ≤ s.length := by
  induction s using eraseIcon.induct with
  | case1 s h ih =>
    obtain ⟨n, hn, hrounds, hnone, hlen⟩ := ih
    -- a text that gets shorter had the word
    have hword : contains "icon".toList s = true := by
      rw [← Bool.not_eq_false, ← erase_eq_self_iff (by decide)]
      intro hsame
      rw [hsame] at h
      exact Nat.lt_irrefl _ h
    have hround := length_erase_add_le (by decide) hword
    have hfour : "icon".toList.length = 4 := by decide
    rw [eraseIcon, if_pos h]
    refine ⟨n + 1, hn, fun k hk => ?_, hnone, by omega⟩
    cases k with
    | zero => exact hword
    | succ k => exact hrounds k (Nat.lt_of_succ_lt_succ hk)
  | case2 s h =>
    rw [eraseIcon, if_neg h]
    refine ⟨0, rfl, fun k hk => absurd hk (Nat.not_lt_zero k), ?_, Nat.zero_le _⟩
    rw [Bool.eq_false_iff]
    exact fun hword => h (length_erase_lt (by decide) hword)

theorem contains_eraseIcon (s : List Char) : contains "icon".toList (eraseIcon s) = false := by
  obtain ⟨-, -, -, hnone, -⟩ := exists_rounds_eraseIcon s
  exact hnone

/-- The name of an icon mentions no icon. -/
theorem contains_iconName (w : List Char) : contains "icon".toList (iconName w) = false := by
  rcases (iconName_cases w).2 with h | h
  · rw [h]
    decide
  · rw [h]
    refine contains_eq_false_of_isInfix (isInfix_trimHyphens _) ?_
    rw [contains_squeezeHyphens (by decide) (by decide), contains_eraseIcon]

theorem contains_iconClass (w : List Char) :
    contains "icon".toList (iconClass (iconName w)) = false := by
  have hcut := contains_append_cons (c := '-') (w := "icon".toList) (by decide) "ico".toList
    (iconName w)
  rw [contains_iconName] at hcut
  exact hcut

theorem mentionsIcon_standardWord (w : List Char) : mentionsIcon (standardWord w) = false := by
  rw [standardWord]
  split
  · exact contains_iconClass w
  · next h => simpa using h

/-- No class in the standard form mentions an icon. -/
theorem mentionsIcon_of_mem_standardWords {ws : List (List Char)} :
    ∀ w ∈ standardWords ws, mentionsIcon w = false :=
  forall_mem_standardWords (fun w _ => mentionsIcon_standardWord w) (by decide)

/-! ### Hyphens in the name of an icon -/

/-- No two neighbours are hyphens where two hyphens occur nowhere in a row. -/
theorem contains_hyphens_of_isSqueezed {s : List Char} (h : IsSqueezed s) :
    contains "--".toList s = false := by
  rw [Bool.eq_false_iff]
  intro hword
  have hpair : IsSqueezed "--".toList := List.IsChain.infix h (contains_iff_isInfix.1 hword)
  exact (List.isChain_cons_cons.1 hpair).1 ⟨rfl, rfl⟩

/-- The hyphens of an icon's name are single ones between other characters. -/
theorem hyphens_iconName (w : List Char) : IsSqueezed (iconName w) ∧
    (iconName w).head? ≠ some '-' ∧ (iconName w).getLast? ≠ some '-' := by
  rcases (iconName_cases w).2 with h | h
  · rw [h]
    exact ⟨(isKebab_iff.2 (by decide)).squeezed, by decide, by decide⟩
  · rw [h]
    refine ⟨?_, ends_trimHyphens _⟩
    exact List.IsChain.infix (isSqueezed_squeezeHyphens _) (isInfix_trimHyphens _)

/-- **The name of an icon can be told from any class.**  The word `icon` is taken out in rounds until
it is nowhere left, and there are at most a quarter as many rounds as the class has letters.  The
name is never empty; it mentions no icon, and its hyphens are single ones between other characters.
So the class made of it mentions no icon either, and it is in kebab case when the class was. -/
theorem iconName_of_any_class (w : List Char) :
    (∃ n, eraseIcon w = (erase "icon".toList)^[n] w ∧
      (∀ k < n, contains "icon".toList ((erase "icon".toList)^[k] w) = true) ∧
      contains "icon".toList (eraseIcon w) = false ∧ 4 * n ≤ w.length) ∧
    iconName w ≠ [] ∧ contains "icon".toList (iconName w) = false ∧
    contains "--".toList (iconName w) = false ∧
    (iconName w).head? ≠ some '-' ∧ (iconName w).getLast? ≠ some '-' ∧
    contains "icon".toList (iconClass (iconName w)) = false ∧
    (kebab w = w → kebab (iconClass (iconName w)) = iconClass (iconName w)) := by
  obtain ⟨hsqueezed, hfirst, hlast⟩ := hyphens_iconName w
  refine ⟨exists_rounds_eraseIcon w, iconName_ne_nil w, contains_iconName w,
    contains_hyphens_of_isSqueezed hsqueezed, hfirst, hlast, contains_iconClass w, fun hkebab => ?_⟩
  exact kebab_of_isKebab (isKebab_iconClass (isKebab_iff.2 hkebab))

/-- Two rounds, of which the first exposes the word to the second, and hyphens on both sides. -/
example : eraseIcon "-icoiconn--x".toList = "---x".toList ∧
    iconName "-icoiconn--x".toList = "x".toList := by
  decide +kernel

end Markup
end SceneMarkup
