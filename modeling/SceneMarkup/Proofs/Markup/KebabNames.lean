import Mathlib.Data.List.Chain
import SceneMarkup.Proofs.Markup.Kebab
import SceneMarkup.Proofs.Text.LowercaseTwice

/-!
# Names in kebab case

What a name in kebab case looks like, and that the spelling finds nothing to do in such a name.

## Main definitions

* `IsKebab` — a name in kebab case.
* `LooksKebab` — what there is to be seen of such a name, which is all there is to it.

## Main results

* `isKebab_kebab` — the spelling of a name is in kebab case.
* `kebab_of_isKebab` — a name in kebab case is kept.
* `kebab_kebab` — **spelling a name twice is spelling it once.**
* `kebab_normal_form` — **the names that are kept are those that look like kebab case, and every
  spelling is one of them.**
-/

namespace SceneMarkup
namespace Markup

open Text

/-- No two neighbours of a text are hyphens. -/
def IsSqueezed (s : List Char) : Prop := s.IsChain fun a b => ¬(a = '-' ∧ b = '-')

/-- A name in kebab case: lower-case characters that separate no words, with single hyphens between
others. -/
structure IsKebab (s : List Char) : Prop where
  /-- Its characters are lower case. -/
  lower : ∀ c ∈ s, IsLower c
  /-- None of them is an underscore or a blank. -/
  joined : ∀ c ∈ s, isSeparator c = false
  /-- No two hyphens are neighbours. -/
  squeezed : IsSqueezed s
  /-- It does not start with a hyphen. -/
  first : s.head? ≠ some '-'
  /-- It does not end with a hyphen. -/
  last : s.getLast? ≠ some '-'

/-! ### Names that are kept -/

theorem isUpper_of_isLower {c : Char} (h : IsLower c) : c.isUpper = false := by
  rw [Bool.eq_false_iff]
  intro hupper
  have hascii : c.toNat < 0x80 := by
    have hcode : c.val ≥ 65 ∧ c.val ≤ 90 := of_decide_eq_true hupper
    exact Nat.lt_of_le_of_lt (UInt32.le_iff_toNat_le.1 hcode.2) (by decide)
  have hform := h.form
  rw [lowerChar_of_ascii hascii] at hform
  exact forall_ascii (P := fun c => c.isUpper = true → c.toLower = c → False) (by decide) hascii
    hupper hform

theorem splitCamel_of_isLower {s : List Char} (h : ∀ c ∈ s, IsLower c) : splitCamel s = s := by
  induction s with
  | nil => rfl
  | cons c s ih =>
    have hs : ∀ d ∈ s, IsLower d := fun d hd => h d (List.mem_cons_of_mem _ hd)
    have hupper : startsUpper s = false := by
      cases s with
      | nil => rfl
      | cons d s => exact isUpper_of_isLower (hs d List.mem_cons_self)
    rw [splitCamel, hupper, Bool.and_false, if_neg Bool.false_ne_true, ih hs]

theorem hyphenate_of_not_isSeparator {s : List Char} (h : ∀ c ∈ s, isSeparator c = false) :
    hyphenate s = s := by
  rw [hyphenate]
  conv => rhs; rw [← List.map_id s]
  exact List.map_congr_left fun c hc => by simp [h c hc]

theorem startsHyphen_iff (s : List Char) : startsHyphen s = true ↔ s.head? = some '-' := by
  cases s with
  | nil => simp [startsHyphen]
  | cons c s => simp [startsHyphen]

theorem squeezeHyphens_of_isSqueezed {s : List Char} (h : IsSqueezed s) :
    squeezeHyphens s = s := by
  induction s with
  | nil => rfl
  | cons c s ih =>
    obtain ⟨hhead, htail⟩ := List.isChain_cons.1 h
    have hcond : ¬(c == '-' && startsHyphen s) = true := by
      rw [Bool.and_eq_true, beq_iff_eq, startsHyphen_iff]
      rintro ⟨rfl, hs⟩
      exact hhead '-' (by simp [hs]) ⟨rfl, rfl⟩
    rw [squeezeHyphens, if_neg hcond, ih htail]

theorem dropWhile_hyphen_of_head? {s : List Char} (h : s.head? ≠ some '-') :
    s.dropWhile (· == '-') = s := by
  cases s with
  | nil => rfl
  | cons c s => exact List.dropWhile_cons_of_neg (by simpa using h)

theorem trimHyphens_of_ends {s : List Char} (hfirst : s.head? ≠ some '-')
    (hlast : s.getLast? ≠ some '-') : trimHyphens s = s := by
  rw [trimHyphens, dropWhile_hyphen_of_head? hfirst,
    dropWhile_hyphen_of_head? (by rwa [List.head?_reverse]), List.reverse_reverse]

/-- A name in kebab case is kept. -/
theorem kebab_of_isKebab {s : List Char} (h : IsKebab s) : kebab s = s := by
  rw [kebab, splitCamel_of_isLower h.lower, hyphenate_of_not_isSeparator h.joined,
    squeezeHyphens_of_isSqueezed h.squeezed, lower_of_isLower h.lower,
    trimHyphens_of_ends h.first h.last]

/-! ### The spelling of a name -/

theorem not_isSeparator_of_mem_hyphenate {s : List Char} :
    ∀ c ∈ hyphenate s, isSeparator c = false := by
  intro c hc
  obtain ⟨d, -, rfl⟩ := List.mem_map.1 hc
  split
  · rfl
  · next h => simpa using h

theorem head?_squeezeHyphens (s : List Char) : (squeezeHyphens s).head? = s.head? := by
  induction s with
  | nil => rfl
  | cons c s ih =>
    rw [squeezeHyphens]
    split
    · next h =>
      rw [Bool.and_eq_true, beq_iff_eq, startsHyphen_iff] at h
      rw [ih, h.2, h.1, List.head?_cons]
    · rfl

theorem isSqueezed_squeezeHyphens (s : List Char) : IsSqueezed (squeezeHyphens s) := by
  induction s with
  | nil => exact List.isChain_nil
  | cons c s ih =>
    rw [squeezeHyphens]
    split
    · exact ih
    · next h =>
      refine List.isChain_cons.2 ⟨fun d hd hboth => h ?_, ih⟩
      rw [head?_squeezeHyphens, hboth.2] at hd
      rw [Bool.and_eq_true, beq_iff_eq, startsHyphen_iff]
      exact ⟨hboth.1, hd⟩

/-- Lower-casing makes no ASCII character that is no letter of another one. -/
theorem eq_of_lowerChar_eq {c d : Char} (hd : d.toNat < 0x80) (halpha : d.isAlpha = false)
    (hnull : d ≠ '\x00') (h : lowerChar c = d) : c = d := by
  by_cases hc : c.toNat < 0x80
  · rw [lowerChar_of_ascii hc] at h
    have hfix := forall_ascii (P := fun c => c.toLower.isAlpha = false → c.toLower = c)
      (by decide) hc
    rw [h] at hfix
    exact (hfix halpha).symm
  · rcases lowerChar_of_not_ascii (by omega : 0x80 ≤ c.toNat) with hk | h0 | hn
    · rw [← h, hk] at halpha
      cases halpha
    · exact absurd (h.symm.trans h0) hnull
    · rw [h] at hn
      omega

/-- What lower-casing makes of a character: its form, or a character of its own. -/
theorem mem_lowerAt {before after : List Char} {c d : Char} (h : d ∈ lowerAt before c after) :
    d = lowerChar c ∨ d ∈ ['\u03C2', '\u03C3', 'i', '\u0307'] := by
  rw [lowerAt] at h
  split at h
  · split at h
    · exact Or.inr (by simp [List.mem_singleton.1 h])
    · exact Or.inr (by simp [List.mem_singleton.1 h])
  · split at h
    · rcases List.mem_cons.1 h with rfl | h
      · exact Or.inr (by simp)
      · exact Or.inr (by simp [List.mem_singleton.1 h])
    · exact Or.inl (List.mem_singleton.1 h)

theorem eq_hyphen_of_mem_lowerAt {before after : List Char} {c : Char}
    (h : '-' ∈ lowerAt before c after) : c = '-' := by
  rcases mem_lowerAt h with h | h
  · exact eq_of_lowerChar_eq (by decide) (by decide) (by decide) h.symm
  · exact absurd h (by decide)

theorem not_isSeparator_of_mem_lowerAt {before after : List Char} {c d : Char}
    (hc : isSeparator c = false) (h : d ∈ lowerAt before c after) : isSeparator d = false := by
  rcases mem_lowerAt h with rfl | h
  · rw [isSeparator, Bool.or_eq_false_iff] at hc ⊢
    refine ⟨?_, isBlank_lowerChar hc.2⟩
    rw [beq_eq_false_iff_ne] at hc ⊢
    exact fun h => hc.1 (eq_of_lowerChar_eq (by decide) (by decide) (by decide) h)
  · have hall : ∀ d ∈ ['\u03C2', '\u03C3', 'i', '\u0307'], isSeparator d = false :=
      forall_mem_of_all (by decide)
    exact hall d h

theorem not_isSeparator_of_mem_lowerAfter {before s : List Char}
    (hs : ∀ c ∈ s, isSeparator c = false) :
    ∀ d ∈ lowerAfter before s, isSeparator d = false := by
  induction s generalizing before with
  | nil =>
    intro d hd
    cases hd
  | cons c s ih =>
    intro d hd
    rw [lowerAfter] at hd
    rcases List.mem_append.1 hd with hd | hd
    · exact not_isSeparator_of_mem_lowerAt (hs c List.mem_cons_self) hd
    · exact ih (fun x hx => hs x (List.mem_cons_of_mem _ hx)) d hd

theorem lowerAt_ne_nil (before after : List Char) (c : Char) : lowerAt before c after ≠ [] := by
  rw [lowerAt]
  split
  · exact List.cons_ne_nil _ _
  · split
    · exact List.cons_ne_nil _ _
    · exact List.cons_ne_nil _ _

theorem isSqueezed_lowerAt (before after : List Char) (c : Char) :
    IsSqueezed (lowerAt before c after) := by
  rw [lowerAt]
  split
  · exact List.isChain_singleton _
  · split
    · exact List.isChain_cons_cons.2 ⟨by decide, List.isChain_singleton _⟩
    · exact List.isChain_singleton _

/-- Hyphens are no neighbours in lower case that were none before. -/
theorem isSqueezed_lowerAfter (before : List Char) {s : List Char} (h : IsSqueezed s) :
    IsSqueezed (lowerAfter before s) ∧
      ((lowerAfter before s).head? = some '-' → s.head? = some '-') := by
  induction s generalizing before with
  | nil => exact ⟨List.isChain_nil, fun h => h⟩
  | cons c s ih =>
    obtain ⟨hhead, htail⟩ := List.isChain_cons.1 h
    obtain ⟨ih₁, ih₂⟩ := ih (c :: before) htail
    rw [lowerAfter]
    constructor
    · -- two hyphens that meet between the pieces were neighbours in the text
      refine List.isChain_append.2 ⟨isSqueezed_lowerAt _ _ _, ih₁, ?_⟩
      rintro a ha b hb ⟨rfl, rfl⟩
      obtain rfl := eq_hyphen_of_mem_lowerAt (List.mem_of_getLast? ha)
      exact hhead '-' (ih₂ hb) ⟨rfl, rfl⟩
    · intro hfirst
      rw [List.head?_append_of_ne_nil _ (lowerAt_ne_nil before s c)] at hfirst
      rw [List.head?_cons, eq_hyphen_of_mem_lowerAt (List.mem_of_head? hfirst)]

theorem head?_dropWhile_hyphen (s : List Char) : (s.dropWhile (· == '-')).head? ≠ some '-' := by
  intro h
  have := List.head?_dropWhile_not (· == '-') s
  rw [h] at this
  exact absurd this (by decide)

/-- No hyphens are left at the ends. -/
theorem ends_trimHyphens (s : List Char) :
    (trimHyphens s).head? ≠ some '-' ∧ (trimHyphens s).getLast? ≠ some '-' := by
  rw [trimHyphens, List.head?_reverse, List.getLast?_reverse]
  refine ⟨fun h => ?_, head?_dropWhile_hyphen _⟩
  -- what is left of the reversed text is its end, and its last character the first of the text
  have hsuffix := List.dropWhile_suffix (l := (s.dropWhile (· == '-')).reverse) (· == '-')
  obtain ⟨u, hu⟩ := hsuffix
  have hne : ((s.dropWhile (· == '-')).reverse.dropWhile (· == '-')) ≠ [] := by
    intro hnil
    rw [hnil] at h
    cases h
  refine head?_dropWhile_hyphen s ?_
  rw [← List.getLast?_reverse, ← hu, List.getLast?_append_of_ne_nil _ hne, h]

theorem isInfix_trimHyphens (s : List Char) : trimHyphens s <:+: s := by
  have hend : ∀ t : List Char, t.dropWhile (· == '-') <:+: t :=
    fun t => (List.dropWhile_suffix _).isInfix
  have hturn : ∀ {t u : List Char}, t <:+: u → t.reverse <:+: u.reverse :=
    fun h => by rwa [ List.reverse_infix]
  rw [trimHyphens]
  refine (hturn (hend _)).trans ?_
  rw [List.reverse_reverse]
  exact hend s

/-- The spelling of a name is in kebab case. -/
theorem isKebab_kebab (s : List Char) : IsKebab (kebab s) where
  lower := fun _ hc => isLower_of_mem_lower ((isInfix_trimHyphens _).subset hc)
  joined := fun c hc =>
    not_isSeparator_of_mem_lowerAfter
      (fun d hd => not_isSeparator_of_mem_hyphenate d ((squeezeHyphens_sublist _).subset hd))
      c ((isInfix_trimHyphens _).subset hc)
  squeezed :=
    List.IsChain.infix (isSqueezed_lowerAfter [] (isSqueezed_squeezeHyphens _)).1
      (isInfix_trimHyphens _)
  first := (ends_trimHyphens _).1
  last := (ends_trimHyphens _).2

/-- **Spelling a name in kebab case twice is spelling it once.** -/
theorem kebab_kebab (s : List Char) : kebab (kebab s) = kebab s :=
  kebab_of_isKebab (isKebab_kebab s)

/-! ### The look of a name in kebab case -/

/-- What is to be seen of a name in kebab case: no white space, no underscores, no capitals, and
hyphens that are single and inside. -/
structure LooksKebab (s : List Char) : Prop where
  /-- It has no white space. -/
  blank : ∀ c ∈ s, isBlank c = false
  /-- It has no underscores. -/
  underscore : '_' ∉ s
  /-- It has no ASCII capitals. -/
  capital : ∀ c ∈ s, c.isUpper = false
  /-- It has no two hyphens in a row. -/
  hyphens : ¬['-', '-'] <:+: s
  /-- It does not start with a hyphen. -/
  first : s.head? ≠ some '-'
  /-- It does not end with a hyphen. -/
  last : s.getLast? ≠ some '-'
  /-- Lower-casing keeps it. -/
  lower : Text.lower s = s

theorem isSqueezed_iff {s : List Char} : IsSqueezed s ↔ ¬['-', '-'] <:+: s := by
  rw [IsSqueezed, List.isChain_iff_forall_rel_of_append_cons_cons]
  constructor
  · rintro h ⟨u, r, hs⟩
    have hsplit : s = u ++ '-' :: '-' :: r := by
      rw [← hs, List.append_assoc]
      rfl
    exact h hsplit ⟨rfl, rfl⟩
  · rintro h a b u r hs ⟨rfl, rfl⟩
    exact h ⟨u, r, by rw [hs, List.append_assoc]; rfl⟩

theorem IsKebab.not_isBlank {s : List Char} (h : IsKebab s) : ∀ c ∈ s, isBlank c = false := by
  intro c hc
  have hjoined := h.joined c hc
  rw [isSeparator, Bool.or_eq_false_iff] at hjoined
  exact hjoined.2

/-- What is to be seen of a name in kebab case is all there is to it. -/
theorem looksKebab_iff {s : List Char} : LooksKebab s ↔ IsKebab s := by
  constructor
  · intro h
    -- a name that lower-casing keeps is one that lower-casing made
    have hlower : ∀ c ∈ s, IsLower c := by
      intro c hc
      rw [← h.lower] at hc
      exact isLower_of_mem_lower hc
    have hjoined : ∀ c ∈ s, isSeparator c = false := by
      intro c hc
      have hne : c ≠ '_' := fun heq => h.underscore (heq ▸ hc)
      rw [isSeparator, h.blank c hc, Bool.or_false, beq_eq_false_iff_ne]
      exact hne
    exact ⟨hlower, hjoined, isSqueezed_iff.2 h.hyphens, h.first, h.last⟩
  · intro h
    have hunderscore : '_' ∉ s := by
      intro hmem
      have hjoined := h.joined '_' hmem
      cases hjoined
    exact ⟨h.not_isBlank, hunderscore, fun c hc => isUpper_of_isLower (h.lower c hc),
      isSqueezed_iff.1 h.squeezed, h.first, h.last, lower_of_isLower h.lower⟩

/-- **The kebab-case spelling.**  The spelling of any name looks like kebab case, and spelling it
again changes nothing; and the names that the spelling keeps are just those that look like kebab
case. -/
theorem kebab_normal_form (s : List Char) :
    LooksKebab (kebab s) ∧ kebab (kebab s) = kebab s ∧
      ∀ t, kebab t = t ↔ LooksKebab t := by
  have hlooks : ∀ t, LooksKebab (kebab t) := by
    intro t
    exact looksKebab_iff.2 (isKebab_kebab t)
  refine ⟨hlooks s, kebab_kebab s, ?_⟩
  intro t
  constructor
  · intro h
    rw [← h]
    exact hlooks t
  · intro h
    exact kebab_of_isKebab (looksKebab_iff.1 h)

theorem not_isBlank_of_mem_kebab {s : List Char} : ∀ c ∈ kebab s, isBlank c = false :=
  (isKebab_kebab s).not_isBlank

end Markup
end SceneMarkup
