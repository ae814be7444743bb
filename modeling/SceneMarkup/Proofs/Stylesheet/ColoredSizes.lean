import SceneMarkup.Proofs.Stylesheet.Numbers
import SceneMarkup.Proofs.Stylesheet.Variables
import SceneMarkup.Proofs.Text.LowercaseTwice
import SceneMarkup.Proofs.Text.Wordwise

/-!
# Sizes and the colours in them

Sizes are converted before variables become colours, so the value of a size is judged by what is
left of it without its variables and without its hexadecimal colours.  Nothing else would come of it
if the colours were there already: a colour in the place of a variable is taken away with the
others, and it neither goes on with what stands in front of it nor does anything behind it go on
with it.

This holds of ASCII values.  A letter of another script may stand behind a variable, where it ends
the name, and it would go on with the digits of the colour.

## Main definitions

* `IsHexLiteral` — a sharp sign and three to eight hexadecimal digits, as a whole text.
* `recolor` — a text with other texts in the places of its variables.
* `withoutHex` — a text without its hexadecimal colours.

## Main results

* `bareValue_inlineColors` — what is left of a value does not depend on the colours being there.
* `contains_recolor` — nor does it whether a word like `calc(` occurs.
* `words_recolor` — the words of a text with its colours.
* `remArgument?_inlineColors` — the argument for a value with its colours.
* `size_judged_before_colours` — **a value with its colours stays as written for the same reason as
  the value with its variables, and its argument is that value's argument with the colours.**
-/

namespace SceneMarkup
namespace Stylesheet

open Text

/-! ### Hexadecimal literals -/

/-- A sharp sign and three to eight hexadecimal digits. -/
def IsHexLiteral (s : List Char) : Prop :=
  ∃ ds, s = '#' :: ds ∧ (∀ d ∈ ds, isHexDigit d = true) ∧ 3 ≤ ds.length ∧ ds.length ≤ 8

theorem isWord_of_isHexDigit {c : Char} (h : isHexDigit c = true) : isWord c = true := by
  have hascii : c.toNat < 0x80 := by
    simp only [isHexDigit, Char.isDigit, Bool.or_eq_true, Bool.and_eq_true, decide_eq_true_eq,
      Char.le_def, UInt32.le_iff_toNat_le] at h
    change (48 ≤ c.toNat ∧ c.toNat ≤ 57 ∨ 97 ≤ c.toNat ∧ c.toNat ≤ 102) ∨
      65 ≤ c.toNat ∧ c.toNat ≤ 70 at h
    omega
  rw [isWord_of_ascii hascii]
  exact forall_ascii (P := fun c => isHexDigit c = true → (c.isAlphanum || c == '_') = true)
    (by decide) hascii h

/-- A text that does not start with a word character does not start with a hexadecimal digit. -/
theorem isHexDigit_head {z : List Char} (hz : startsWord z = false) :
    ∀ c ∈ z.head?, isHexDigit c = false := by
  intro c hc
  obtain ⟨r, rfl⟩ := List.head?_eq_some_iff.1 hc
  by_contra hhex
  rw [Bool.not_eq_false] at hhex
  rw [startsWord_cons, isWord_of_isHexDigit hhex] at hz
  cases hz

theorem startsWord_sharp (s : List Char) : startsWord ('#' :: s) = false := by
  rw [startsWord_cons, isWord_of_ascii (by decide)]
  decide

/-- Hexadecimal digits up to something else are read as a colour when there are neither too few nor
too many, and a word boundary follows. -/
theorem hexColor?_append {x z : List Char} (hx : ∀ c ∈ x, isHexDigit c = true)
    (hz : ∀ c ∈ z.head?, isHexDigit c = false) :
    hexColor? ('#' :: x ++ z) =
      if 3 ≤ x.length ∧ x.length ≤ 8 ∧ !startsWord z then some ((), z) else none := by
  obtain ⟨htake, hdrop⟩ := takeWhile_append_of_head? hx hz
  rw [List.cons_append, hexColor?, htake, hdrop]

theorem hexColor?_eq_some_nil_iff {s : List Char} :
    hexColor? s = some ((), []) ↔ IsHexLiteral s := by
  constructor
  · intro h
    rw [hexColor?.eq_def] at h
    split at h
    · next s =>
      dsimp only at h
      split at h
      · next hlen =>
        have hrest : s.dropWhile isHexDigit = [] := (Prod.mk.inj (Option.some.inj h)).2
        have hall := List.dropWhile_eq_nil_iff.1 hrest
        rw [List.takeWhile_eq_self_iff.2 hall] at hlen
        exact ⟨s, rfl, hall, hlen.1, hlen.2.1⟩
      · cases h
    · cases h
  · rintro ⟨ds, rfl, hds, hmin, hmax⟩
    have hread := hexColor?_append (z := []) hds (by simp)
    rw [List.append_nil] at hread
    rw [hread, if_pos ⟨hmin, hmax, rfl⟩]

instance (s : List Char) : Decidable (IsHexLiteral s) :=
  decidable_of_iff _ hexColor?_eq_some_nil_iff

theorem IsHexLiteral.head? {s : List Char} (h : IsHexLiteral s) : s.head? = some '#' := by
  obtain ⟨ds, rfl, -⟩ := h
  rfl

theorem IsHexLiteral.isSharp {s : List Char} (h : IsHexLiteral s) : IsSharp s := by
  obtain ⟨ds, rfl, hds, -⟩ := h
  refine ⟨rfl, ?_⟩
  rintro (_ | ⟨_, hmem⟩)
  exact absurd (hds '$' hmem) (by decide)

theorem IsHexLiteral.startsWord {s : List Char} (h : IsHexLiteral s) : startsWord s = false := by
  obtain ⟨ds, rfl, -⟩ := h
  exact startsWord_sharp ds

theorem IsHexLiteral.not_isBlank {s : List Char} (h : IsHexLiteral s) :
    ∀ c ∈ s, isBlank c = false := by
  obtain ⟨ds, rfl, hds, -⟩ := h
  rintro c (_ | ⟨_, hc⟩)
  · decide
  · by_contra hblank
    rw [Bool.not_eq_false] at hblank
    have hnot : isHexDigit c = false :=
      forall_blank (P := fun c => isHexDigit c = false) (by decide) hblank
    rw [hds c hc] at hnot
    cases hnot

/-- Every colour of the tables is a literal, so every variable stands for one if the fallback is
one. -/
theorem isHexLiteral_resolveColor {fallback : List Char} (h : IsHexLiteral fallback)
    (name : List Char) : IsHexLiteral (resolveColor name fallback) :=
  resolveColor_cases (by decide) (by decide) h name

/-! ### Texts without their colours -/

/-- A text without its hexadecimal colours. -/
def withoutHex : List Char → List Char := replaceAll hexColor? fun _ _ => []

theorem hexColor?_cons {c : Char} (hc : c ≠ '#') (s : List Char) : hexColor? (c :: s) = none := by
  rw [hexColor?.eq_def]
  split
  · next h => exact absurd (List.cons.inj h).1 hc
  · rfl

theorem withoutHex_cons {c : Char} (hc : c ≠ '#') (s : List Char) :
    withoutHex (c :: s) = c :: withoutHex s :=
  replaceAll_cons_of_none (hexColor?_cons hc s)

theorem withoutHex_digits_append {x : List Char} (hx : ∀ c ∈ x, isHexDigit c = true)
    (z : List Char) : withoutHex (x ++ z) = x ++ withoutHex z := by
  induction x with
  | nil => rfl
  | cons c x ih =>
    have hc : c ≠ '#' := by
      rintro rfl
      exact absurd (hx '#' List.mem_cons_self) (by decide)
    rw [List.cons_append, withoutHex_cons hc, ih fun d hd => hx d (List.mem_cons_of_mem _ hd)]
    rfl

/-- A sharp sign and hexadecimal digits up to something else: either all of it is taken away or
nothing, and which of the two depends only on how the rest starts. -/
theorem withoutHex_sharp_append {x z : List Char} (hx : ∀ c ∈ x, isHexDigit c = true)
    (hz : ∀ c ∈ z.head?, isHexDigit c = false) :
    withoutHex ('#' :: x ++ z) =
      (if 3 ≤ x.length ∧ x.length ≤ 8 ∧ !startsWord z then [] else '#' :: x) ++ withoutHex z := by
  have hread := hexColor?_append hx hz
  split
  · next hlen =>
    rw [if_pos hlen] at hread
    exact replaceAll_append_of_some (List.cons_ne_nil _ _) hread
  · next hlen =>
    rw [if_neg hlen] at hread
    rw [List.cons_append] at hread ⊢
    rw [withoutHex, replaceAll_cons_of_none hread, ← withoutHex, withoutHex_digits_append hx]
    rfl

/-- A literal in front of something that is no word character is taken away. -/
theorem withoutHex_literal_append {color z : List Char} (h : IsHexLiteral color)
    (hz : startsWord z = false) : withoutHex (color ++ z) = withoutHex z := by
  obtain ⟨ds, rfl, hds, hmin, hmax⟩ := h
  rw [withoutHex_sharp_append hds (isHexDigit_head hz), if_pos ⟨hmin, hmax, by rw [hz]; rfl⟩,
    List.nil_append]

/-! ### Texts with other texts in the places of variables -/

/-- A text in which every variable is replaced by what `color` makes of its name. -/
def recolor (color : List Char → List Char) : List Char → List Char :=
  replaceAll variableName? fun _ name => color name

theorem inlineColors_eq_recolor (fallback : List Char) :
    (inlineColors fallback).revise = recolor fun name => resolveColor name fallback :=
  rfl

theorem bareValue_eq (v : List Char) : bareValue v = withoutHex (recolor (fun _ => []) v) := rfl

/-- Induction on a text by its variables. -/
theorem variable_induction {P : List Char → Prop} (nil : P [])
    (plain : ∀ c s, variableName? (c :: s) = none → P s → P (c :: s))
    (found : ∀ name r, variableName? (name ++ r) = some (name, r) → P r → P (name ++ r))
    (s : List Char) : P s := by
  refine text_induction consumes_variableName? nil plain ?_ s
  intro t name r _ h ih
  obtain rfl : t = name := List.append_cancel_right (variableName?_eq_some h).1
  exact found t r h ih

section Recolor

variable {color : List Char → List Char}

@[simp] theorem recolor_nil : recolor color [] = [] := rfl

theorem recolor_cons {c : Char} {s : List Char} (h : variableName? (c :: s) = none) :
    recolor color (c :: s) = c :: recolor color s :=
  replaceAll_cons_of_none h

theorem recolor_append {name r : List Char} (h : variableName? (name ++ r) = some (name, r)) :
    recolor color (name ++ r) = color name ++ recolor color r := by
  obtain ⟨-, c, u, rfl, -⟩ := variableName?_eq_some h
  exact replaceAll_append_of_some (List.cons_ne_nil _ _) h

theorem recolor_eq_self {s : List Char} (h : IsVariableFree s) : recolor color s = s :=
  replaceAll_eq_self fun o ho => by simp [occurrences_variableName?_eq_nil h] at ho

/-- A character that ends names and starts none divides a text. -/
theorem recolor_append_cons {b : Char} (hb : isIdentChar b = false) (hdollar : b ≠ '$')
    (u z : List Char) : recolor color (u ++ b :: z) = recolor color u ++ b :: recolor color z := by
  induction u using variable_induction with
  | nil =>
    have hn : variableName? (b :: z) = none := by
      rw [variableName?.eq_def]
      split
      · next h => exact absurd (List.cons.inj h).1 hdollar
      · rfl
    exact recolor_cons hn
  | plain c u hn ih =>
    have hn' : variableName? (c :: (u ++ b :: z)) = none := by
      by_contra h
      obtain ⟨⟨name, r⟩, h⟩ := Option.ne_none_iff_exists'.1 h
      obtain ⟨hs, d, x, rfl, hd, -⟩ := variableName?_eq_some h
      obtain ⟨rfl, htail⟩ := List.cons.inj hs
      cases u with
      | nil =>
        obtain ⟨rfl, -⟩ := List.cons.inj htail
        rw [isIdentChar, Char.isAlphanum, hd] at hb
        cases hb
      | cons e u =>
        obtain ⟨rfl, -⟩ := List.cons.inj htail
        obtain ⟨found, hfound⟩ := variableName?_cons_cons hd u
        rw [hfound] at hn
        cases hn
    rw [List.cons_append, recolor_cons hn', ih, recolor_cons hn]
    rfl
  | found name r h ih =>
    have h' : variableName? (name ++ (r ++ b :: z)) = some (name, r ++ b :: z) := by
      have hhead : ∀ c ∈ (r ++ b :: z).head?, isIdentChar c = false := by
        intro c hc
        cases r with
        | nil =>
          obtain rfl : b = c := Option.some.inj hc
          exact hb
        | cons d r => exact isIdentChar_head_of_variableName? h hc
      obtain ⟨-, c, u, rfl, hc, hu⟩ := variableName?_eq_some h
      obtain ⟨htake, hdrop⟩ := takeWhile_append_of_head? hu hhead
      rw [List.cons_append, List.cons_append, variableName?, if_pos hc, htake, hdrop]
    rw [List.append_assoc, recolor_append h', ih, recolor_append h, List.append_assoc]

theorem mem_recolor {s : List Char} {c : Char} (h : c ∈ recolor color s) :
    c ∈ s ∨ ∃ name, c ∈ color name := by
  induction s using variable_induction with
  | nil => exact Or.inl h
  | plain d s hn ih =>
    rw [recolor_cons hn] at h
    rcases List.mem_cons.1 h with rfl | h
    · exact Or.inl List.mem_cons_self
    · exact (ih h).imp_left (List.mem_cons_of_mem d)
  | found name r hread ih =>
    rw [recolor_append hread] at h
    rcases List.mem_append.1 h with h | h
    · exact Or.inr ⟨name, h⟩
    · exact (ih h).imp_left (List.mem_append_right name)

/-! ### What stands around a variable -/

/-- In an ASCII text a word boundary follows every variable. -/
theorem startsWord_of_variableName? {name r : List Char} (hr : ∀ c ∈ r, c.toNat < 0x80)
    (h : variableName? (name ++ r) = some (name, r)) : startsWord r = false := by
  cases r with
  | nil => rfl
  | cons c r =>
    have hident := isIdentChar_head_of_variableName? h (c := c) rfl
    rw [startsWord_cons, isWord_of_ascii (hr c List.mem_cons_self)]
    rw [isIdentChar, Bool.or_eq_false_iff] at hident
    exact hident.1

/-- A boundary in front of an ASCII text stays when colours that start no word are put in. -/
theorem startsWord_recolor (hcolor : ∀ name, startsWord (color name) = false) {s : List Char}
    (hs : ∀ c ∈ s, c.toNat < 0x80) (h : startsWord s = false) :
    startsWord (recolor color s) = false := by
  induction s using variable_induction with
  | nil => rfl
  | plain c s hn ih =>
    rw [recolor_cons hn]
    exact h
  | found name r hread ih =>
    have hr : ∀ c ∈ r, c.toNat < 0x80 := fun c hc => hs c (List.mem_append_right name hc)
    rw [recolor_append hread]
    have hhead := hcolor name
    cases hname : color name with
    | nil => exact ih hr (startsWord_of_variableName? hr hread)
    | cons d u =>
      rw [hname] at hhead
      exact hhead

/-- What is left of a text does not depend on whether its variables are taken away or replaced by
literals first.  For the induction the text also stands behind a sharp sign and digits, with which
it may go on. -/
theorem withoutHex_recolor_of_ascii (hcolor : ∀ name, IsHexLiteral (color name)) {s : List Char}
    (hs : ∀ c ∈ s, c.toNat < 0x80) :
    withoutHex (recolor color s) = withoutHex (recolor (fun _ => []) s) ∧
      ∀ x, (∀ c ∈ x, isHexDigit c = true) →
        withoutHex ('#' :: x ++ recolor color s)
          = withoutHex ('#' :: x ++ recolor (fun _ => []) s) := by
  have hsharp : ∀ name, startsWord (color name) = false := fun name => (hcolor name).startsWord
  induction s using variable_induction with
  | nil => exact ⟨rfl, fun x _ => rfl⟩
  | plain c s hn ih =>
    obtain ⟨ih, ihsharp⟩ := ih fun d hd => hs d (List.mem_cons_of_mem _ hd)
    rw [recolor_cons hn, recolor_cons hn]
    have hfirst : withoutHex (c :: recolor color s)
        = withoutHex (c :: recolor (fun _ => []) s) := by
      by_cases hc : c = '#'
      · subst hc
        exact ihsharp [] (by simp)
      · rw [withoutHex_cons hc, withoutHex_cons hc, ih]
    refine ⟨hfirst, fun x hx => ?_⟩
    cases hc : isHexDigit c with
    | true =>
      -- the digit goes on with those in front of it
      have := ihsharp (x ++ [c]) (by simpa [or_imp, forall_and] using ⟨hx, hc⟩)
      simpa using this
    | false =>
      have hhead : ∀ z : List Char, ∀ d ∈ (c :: z).head?, isHexDigit d = false := by
        intro z d hd
        obtain rfl : c = d := Option.some.inj hd
        exact hc
      rw [withoutHex_sharp_append hx (hhead _), withoutHex_sharp_append hx (hhead _), hfirst]
      rfl
  | found name r hread ih =>
    have hr : ∀ c ∈ r, c.toNat < 0x80 := fun c hc => hs c (List.mem_append_right name hc)
    obtain ⟨ih, -⟩ := ih hr
    have hbound := startsWord_of_variableName? hr hread
    have hkept := startsWord_recolor hsharp hr hbound
    have herased : startsWord (recolor (fun _ => []) r) = false :=
      startsWord_recolor (fun _ => rfl) hr hbound
    rw [recolor_append hread, recolor_append hread, List.nil_append]
    have hfirst : withoutHex (color name ++ recolor color r)
        = withoutHex (recolor (fun _ => []) r) := by
      rw [withoutHex_literal_append (hcolor name) hkept, ih]
    refine ⟨hfirst, fun x hx => ?_⟩
    -- the colour starts no word, and nor does what follows the variable
    have hstart : startsWord (color name ++ recolor color r) = false := by
      obtain ⟨ds, hds, -⟩ := hcolor name
      rw [hds, List.cons_append, startsWord_sharp]
    rw [withoutHex_sharp_append hx (isHexDigit_head hstart),
      withoutHex_sharp_append hx (isHexDigit_head herased), hfirst, hstart, herased]

/-! ### Words that are searched for -/

section Search

variable {a b : List Char} {l : Char} (ha : ∀ c ∈ a, isHexDigit c = true) (hl : isWord l = true)
  (hhex : isHexDigit l = false)

include ha hl hhex

/-- A word with a letter that is no hexadecimal digit, with nothing but digits in front of it, does
not start among the digits of a colour. -/
theorem startsWith_digits_append {x z : List Char} (hx : ∀ c ∈ x, isHexDigit c = true)
    (hz : startsWord z = false) : startsWith (a ++ l :: b) (x ++ z) = false := by
  by_contra h
  rw [Bool.not_eq_false, startsWith_iff_isPrefix] at h
  obtain ⟨r, hr⟩ := h
  rw [List.append_assoc, List.cons_append] at hr
  have hhead : ∀ c ∈ (l :: (b ++ r)).head?, isHexDigit c = false := by
    intro c hc
    obtain rfl : l = c := Option.some.inj hc
    exact hhex
  -- the digits end where `z` starts, and they end in front of `l`
  have hdrop := (takeWhile_append_of_head? ha hhead).2
  rw [hr, (takeWhile_append_of_head? hx (isHexDigit_head hz)).2] at hdrop
  rw [hdrop, startsWord_cons, hl] at hz
  cases hz

theorem contains_digits_append {x z : List Char} (hx : ∀ c ∈ x, isHexDigit c = true)
    (hz : startsWord z = false) : contains (a ++ l :: b) (x ++ z) = contains (a ++ l :: b) z := by
  induction x with
  | nil => rfl
  | cons c x ih =>
    rw [List.cons_append, contains_cons, ← List.cons_append,
      startsWith_digits_append ha hl hhex hx hz, Bool.false_or,
      ih fun d hd => hx d (List.mem_cons_of_mem _ hd)]

/-- **A word of this kind that does not occur in an ASCII text does not occur in it with its
colours.** -/
theorem contains_recolor (hsharp : '#' ∉ a ++ l :: b)
    (hcolor : ∀ name, IsHexLiteral (color name)) {s : List Char} (hs : ∀ c ∈ s, c.toNat < 0x80)
    (h : contains (a ++ l :: b) s = false) : contains (a ++ l :: b) (recolor color s) = false := by
  induction s using variable_induction with
  | nil => exact h
  | plain c s hn ih =>
    rw [contains_cons, Bool.or_eq_false_iff] at h
    rw [recolor_cons hn, contains_cons, Bool.or_eq_false_iff]
    refine ⟨?_, ih (fun d hd => hs d (List.mem_cons_of_mem _ hd)) h.2⟩
    by_contra hstart
    rw [Bool.not_eq_false, startsWith_iff_isPrefix, ← recolor_cons hn] at hstart
    obtain ⟨u, hu⟩ := hstart
    -- a colour starts with a sharp sign, so a word without one was there before
    obtain ⟨r, hr, -⟩ := eq_of_replaceAll_eq_append consumes_variableName? (P := (· == '#'))
      (fun _ name _ _ _ => ⟨'#', (hcolor name).head?, rfl⟩)
      (fun d hd => by
        refine beq_false_of_ne ?_
        rintro rfl
        exact hsharp hd) hu.symm
    have : startsWith (a ++ l :: b) (c :: s) = true :=
      startsWith_iff_isPrefix.2 (hr ▸ List.prefix_append _ r)
    rw [h.1] at this
    cases this
  | found name r hread ih =>
    have hr : ∀ c ∈ r, c.toNat < 0x80 := fun c hc => hs c (List.mem_append_right name hc)
    have hrest : contains (a ++ l :: b) r = false := by
      by_contra hin
      rw [Bool.not_eq_false, contains_iff_isInfix] at hin
      have := contains_iff_isInfix.2 (hin.trans (List.suffix_append name r).isInfix)
      rw [h] at this
      cases this
    have hbound := startsWord_recolor (fun name => (hcolor name).startsWord) hr
      (startsWord_of_variableName? hr hread)
    obtain ⟨ds, hds, hdigits, -⟩ := hcolor name
    rw [recolor_append hread, hds, ← List.nil_append ('#' :: ds ++ recolor color r),
      List.cons_append, contains_append_cons hsharp,
      contains_digits_append ha hl hhex hdigits hbound, ih hr hrest, Bool.or_false]
    simp

end Search

/-! ### Words -/

theorem isIdentChar_of_isBlank {b : Char} (hb : isBlank b = true) :
    isIdentChar b = false ∧ b ≠ '$' :=
  forall_blank (P := fun b => isIdentChar b = false ∧ b ≠ '$') (by decide) hb

theorem recolor_ne_nil (hcolor : ∀ name, color name ≠ []) {s : List Char} (hs : s ≠ []) :
    recolor color s ≠ [] := by
  cases s using variable_induction with
  | nil => exact hs
  | plain c s hn _ =>
    rw [recolor_cons hn]
    exact List.cons_ne_nil _ _
  | found name r hread _ =>
    rw [recolor_append hread]
    exact List.append_ne_nil_of_left_ne_nil (hcolor name) _

theorem isWordwise_recolor : IsWordwise (recolor color) where
  nil := rfl
  append_cons := by
    intro u b e hb
    obtain ⟨hident, hdollar⟩ := isIdentChar_of_isBlank hb
    exact recolor_append_cons hident hdollar u e

/-- The words of a text with its colours are the words of the text with theirs: colours are not
empty and have no blanks. -/
theorem words_recolor (hcolor : ∀ name, color name ≠ [] ∧ ∀ c ∈ color name, isBlank c = false)
    (s : List Char) : words (recolor color s) = (words s).map (recolor color) := by
  refine isWordwise_recolor.words_eq_map fun t ht => ?_
  obtain ⟨hne, hblank⟩ := not_isBlank_of_mem_words ht
  refine ⟨recolor_ne_nil (fun name => (hcolor name).1) hne, fun c hc => ?_⟩
  rcases mem_recolor hc with hc | ⟨name, hc⟩
  · exact hblank c hc
  · exact (hcolor name).2 c hc

theorem recolor_joinWith (ls : List (List Char)) :
    recolor color (joinWith [' '] ls) = joinWith [' '] (ls.map (recolor color)) := by
  induction ls with
  | nil => rfl
  | cons l ls ih =>
    cases ls with
    | nil => rfl
    | cons l' ls =>
      rw [joinWith_cons_cons, List.singleton_append,
        recolor_append_cons (by decide) (by decide), ih]
      rfl

/-! ### Numeric tokens -/

/-- A text with a variable in it has a dollar sign, and with its colour a sharp sign. -/
theorem mem_recolor_of_mem (hcolor : ∀ name, '#' ∈ color name) {s : List Char} (h : '$' ∈ s) :
    '$' ∈ recolor color s ∨ '#' ∈ recolor color s := by
  induction s using variable_induction with
  | nil => cases h
  | plain c s hn ih =>
    rw [recolor_cons hn]
    rcases List.mem_cons.1 h with rfl | h
    · exact Or.inl List.mem_cons_self
    · exact (ih h).imp (List.mem_cons_of_mem c) (List.mem_cons_of_mem c)
  | found name r hread _ =>
    rw [recolor_append hread]
    exact Or.inr (List.mem_append_left _ (hcolor name))

theorem numericToken?_recolor (hcolor : ∀ name, '#' ∈ color name) (t : List Char) :
    numericToken? (recolor color t) = numericToken? t := by
  by_cases h : '$' ∈ t
  · rw [numericToken?_eq_none_of_mem h (by decide) (by decide)]
    rcases mem_recolor_of_mem hcolor h with h | h
    · exact numericToken?_eq_none_of_mem h (by decide) (by decide)
    · exact numericToken?_eq_none_of_mem h (by decide) (by decide)
  · rw [recolor_eq_self (isVariableFree_of_not_mem h)]

theorem bareToken_recolor (hcolor : ∀ name, '#' ∈ color name) (t : List Char) :
    bareToken (recolor color t) = recolor color (bareToken t) := by
  rw [bareToken, numericToken?_recolor hcolor]
  cases h : numericToken? t with
  | none => rw [bareToken, h]; rfl
  | some n =>
    have hn : '$' ∉ bareToken t := by
      intro hmem
      have := numericToken?_eq_none_of_mem (mem_of_mem_bareToken hmem) (by decide)
        (by decide)
      rw [h] at this
      cases this
    rw [recolor_eq_self (isVariableFree_of_not_mem hn), bareToken, h]
    rfl

end Recolor

/-! ### Sizes -/

section Sizes

variable {fallback : List Char} (hfb : IsHexLiteral fallback)

include hfb

/-- What is left of an ASCII value without its variables and its colours is left of the value with
its colours. -/
theorem bareValue_inlineColors {v : List Char} (hv : ∀ c ∈ v, c.toNat < 0x80) :
    bareValue ((inlineColors fallback).revise v) = bareValue v := by
  have hfree := isVariableFree_inlineColors hfb.isSharp.isInert v
  rw [bareValue_eq, recolor_eq_self hfree, inlineColors_eq_recolor, bareValue_eq,
    (withoutHex_recolor_of_ascii (isHexLiteral_resolveColor hfb) hv).1]

theorem skipReason?_inlineColors {v : List Char} (hv : ∀ c ∈ v, c.toNat < 0x80)
    (hrem : contains "rem(".toList v = false) (hcalc : contains "calc(".toList v = false) :
    skipReason? ((inlineColors fallback).revise v) = skipReason? v := by
  have hcolor := isHexLiteral_resolveColor hfb
  have hrem' : contains "rem(".toList ((inlineColors fallback).revise v) = false :=
    contains_recolor (a := []) (b := "em(".toList) (by simp) (l := 'r') (by decide) (by decide)
      (by decide) hcolor hv hrem
  have hcalc' : contains "calc(".toList ((inlineColors fallback).revise v) = false :=
    contains_recolor (a := "ca".toList) (b := "c(".toList) (forall_mem_of_all (by decide)) (l := 'l') (by decide)
      (by decide) (by decide) hcolor hv hcalc
  rw [skipReason?, skipReason?, hrem, hcalc, hrem', hcalc', bareValue_inlineColors hfb hv]

theorem numericValue?_inlineColors (v : List Char) :
    numericValue? ((inlineColors fallback).revise v)
      = (numericValue? v).map (inlineColors fallback).revise := by
  have hcolor := isHexLiteral_resolveColor hfb
  have hsharp : ∀ name, '#' ∈ resolveColor name fallback := fun name =>
    List.mem_of_mem_head? (hcolor name).head?
  rw [inlineColors_eq_recolor, numericValue?, numericValue?,
    words_recolor fun name => ⟨List.ne_nil_of_mem (hsharp name), (hcolor name).not_isBlank⟩,
    List.any_map, List.map_map]
  simp only [Function.comp_def, numericToken?_recolor hsharp, bareToken_recolor hsharp]
  split
  · rw [Option.map_some, recolor_joinWith, List.map_map]
    rfl
  · rfl

/-- The argument for a value with its colours. -/
theorem remArgument?_inlineColors {v : List Char} (hv : ∀ c ∈ v, c.toNat < 0x80)
    (hrem : contains "rem(".toList v = false) (hcalc : contains "calc(".toList v = false) :
    remArgument? ((inlineColors fallback).revise v)
      = (remArgument? v).map (inlineColors fallback).revise := by
  rw [remArgument?, remArgument?, skipReason?_inlineColors hfb hv hrem hcalc, numericValue?_trim,
    numericValue?_trim, numericValue?_inlineColors hfb]
  split <;> rfl

end Sizes

/-- **Sizes may be judged before the colours are there.**  An ASCII value that is neither computed
nor written with `rem` stays as written with its colours for the reason for which it does with its
variables, if for any, and its argument with the colours is its argument with the variables, in
which these become colours. -/
theorem size_judged_before_colours {fallback : List Char} (hfb : IsHexLiteral fallback)
    (v : List Char) (hv : ∀ c ∈ v, c.toNat < 0x80) (hrem : contains "rem(".toList v = false)
    (hcalc : contains "calc(".toList v = false) :
    skipReason? ((inlineColors fallback).revise v) = skipReason? v ∧
      numericValue? ((inlineColors fallback).revise v)
        = (numericValue? v).map (inlineColors fallback).revise :=
  ⟨skipReason?_inlineColors hfb hv hrem hcalc, numericValue?_inlineColors hfb v⟩

/-- Digits too few for a colour in front of a variable, and a variable that looks like a unit. -/
theorem size_judged_before_colours_side_by_side :
    (inlineColors "#12345678".toList).revise "#ab$red $gap-4em 5px".toList
        = "#ab#ef4444 #12345678 5px".toList ∧
      numericValue? "#ab#ef4444 #12345678 5px".toList = some "#ab#ef4444 #12345678 5".toList ∧
      skipReason? ((inlineColors "#12345678".toList).revise "#ab$red $gap-4em 5px".toList)
        = skipReason? "#ab$red $gap-4em 5px".toList ∧
      numericValue? ((inlineColors "#12345678".toList).revise "#ab$red $gap-4em 5px".toList)
        = (numericValue? "#ab$red $gap-4em 5px".toList).map
            (inlineColors "#12345678".toList).revise :=
  ⟨by decide +kernel, by decide +kernel,
    size_judged_before_colours (by decide) _ (forall_mem_of_all (by decide)) (by decide)
      (by decide)⟩

end Stylesheet
end SceneMarkup
