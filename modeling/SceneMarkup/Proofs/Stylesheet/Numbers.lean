import Mathlib.Data.List.Forall2
import SceneMarkup.Proofs.Stylesheet.Conversion
import SceneMarkup.Proofs.Text.Runs
import SceneMarkup.Proofs.Text.Words

/-!
# Numbers read again

A number is read as far as it goes.  Where something stands behind it that does not go on with it, a
blank or the end of the text, it is read again as it was read before.  A size is converted token by
token, and so its tokens can be found in the argument again.

## Main definitions

* `EndsNumber` — a text that does not go on with a number in front of it.
* `Rereads` — a reader reads again what it has read, in front of every such text.
* `isNumberChar` — the characters of numbers.
* `IsStripped` — a token, and the same without a unit of pixels.

## Main results

* `rereads_unsigned?`, `rereads_signed?`, `rereads_number?` — the readers of numbers do.
* `numericToken?_eq_some` — a numeric token is its number, with a unit behind it or without.
* `numericToken?_eq_none_of_mem` — it has no other characters than numbers and units have.
* `words_of_numericValue?` — the tokens of a size and those of its argument, one by one.
* `numericValue?_stable` — the argument for a size is converted to itself.
-/

namespace SceneMarkup
namespace Stylesheet

open Text

/-! ### Numbers -/

/-- A text that starts with neither a digit nor a point, so that a number in front of it ends. -/
def EndsNumber (z : List Char) : Prop := ∀ c ∈ z.head?, isDigit c = false ∧ c ≠ '.'

/-- A reader of numbers that reads again what it has read, in front of every text that does not go
on with the number. -/
def Rereads (p : Recogniser (List Char)) : Prop :=
  ∀ ⦃s n r : List Char⦄, p s = some (n, r) →
    n ≠ [] ∧ ∀ z, EndsNumber z → p (n ++ z) = some (n, z)

theorem endsNumber_nil : EndsNumber [] := by
  intro c hc
  cases hc

theorem endsNumber_blank (s : List Char) : EndsNumber (' ' :: s) := by
  intro c hc
  obtain rfl : ' ' = c := Option.some.inj hc
  decide

/-- A digit of no script is blank. -/
theorem not_isBlank_of_isDigit {c : Char} (h : isDigit c = true) : isBlank c = false := by
  by_contra hblank
  rw [Bool.not_eq_false] at hblank
  have hnot : isDigit c = false := forall_blank (P := fun c => isDigit c = false) (by decide) hblank
  rw [h] at hnot
  cases hnot

theorem digits?_eq_some {s ds r : List Char} (h : digits? s = some (ds, r)) :
    ds ≠ [] ∧ ∀ c ∈ ds, isDigit c = true := by
  rw [digits?] at h
  split at h
  · cases h
  · next hne =>
    cases h
    exact ⟨hne, fun c hc => List.mem_takeWhile_imp hc⟩

theorem digits?_append {ds z : List Char} (hne : ds ≠ []) (hds : ∀ c ∈ ds, isDigit c = true)
    (hz : ∀ c ∈ z.head?, isDigit c = false) : digits? (ds ++ z) = some (ds, z) := by
  obtain ⟨htake, hdrop⟩ := takeWhile_append_of_head? hds hz
  rw [digits?, htake, hdrop]
  split
  · exact absurd rfl hne
  · rfl

theorem fraction?_eq_some {s f r : List Char} (h : fraction? s = some (f, r)) :
    ∃ ds, f = '.' :: ds ∧ ds ≠ [] ∧ ∀ c ∈ ds, isDigit c = true := by
  rw [fraction?.eq_def] at h
  split at h
  · split at h
    · next ds rest hd =>
      cases h
      exact ⟨ds, rfl, digits?_eq_some hd⟩
    · cases h
  · cases h

theorem fraction?_append {ds z : List Char} (hne : ds ≠ []) (hds : ∀ c ∈ ds, isDigit c = true)
    (hz : EndsNumber z) : fraction? ('.' :: ds ++ z) = some ('.' :: ds, z) := by
  rw [List.cons_append, fraction?, digits?_append hne hds fun c hc => (hz c hc).1]

theorem fraction?_of_endsNumber {z : List Char} (hz : EndsNumber z) : fraction? z = none := by
  rw [fraction?.eq_def]
  split
  · exact absurd rfl (hz '.' rfl).2
  · rfl

theorem rereads_fraction? : Rereads fraction? := by
  intro s n r h
  obtain ⟨ds, rfl, hne, hds⟩ := fraction?_eq_some h
  exact ⟨List.cons_ne_nil _ _, fun z hz => fraction?_append hne hds hz⟩

theorem rereads_unsigned? : Rereads unsigned? := by
  intro s n r h
  rw [unsigned?] at h
  split at h
  · cases h
  · next ds r' hd =>
    obtain ⟨hne, hds⟩ := digits?_eq_some hd
    split at h
    · next f rest hf =>
      cases h
      obtain ⟨fs, rfl, hfne, hfs⟩ := fraction?_eq_some hf
      refine ⟨List.append_ne_nil_of_left_ne_nil hne _, fun z hz => ?_⟩
      have hpoint : ∀ c ∈ ('.' :: fs ++ z).head?, isDigit c = false := by
        intro c hc
        obtain rfl : '.' = c := Option.some.inj hc
        decide
      rw [unsigned?, List.append_assoc, digits?_append hne hds hpoint]
      simp only [fraction?_append hfne hfs hz]
    · cases h
      refine ⟨hne, fun z hz => ?_⟩
      rw [unsigned?, digits?_append hne hds fun c hc => (hz c hc).1]
      simp only [fraction?_of_endsNumber hz]

/-- A reader that reads again does so with a minus sign in front. -/
theorem Rereads.signed? {p : Recogniser (List Char)} (hp : Rereads p) (hv : Verbatim p) :
    Rereads (Stylesheet.signed? p) := by
  intro s n r h
  cases s with
  | nil =>
    obtain ⟨hne, -⟩ := hp h
    exact absurd (List.append_eq_nil_iff.1 (hv h).symm).1 hne
  | cons c s =>
    simp only [Stylesheet.signed?] at h
    split at h
    · split at h
      · next n' rest hn =>
        cases h
        obtain ⟨-, hread⟩ := hp hn
        refine ⟨List.cons_ne_nil _ _, fun z hz => ?_⟩
        rw [List.cons_append, Stylesheet.signed?, if_pos rfl, hread z hz]
      · cases h
    · next hc =>
      obtain ⟨hne, hread⟩ := hp h
      refine ⟨hne, fun z hz => ?_⟩
      obtain ⟨d, u, rfl⟩ := List.exists_cons_of_ne_nil hne
      obtain rfl : c = d := (List.cons.inj (hv h)).1
      rw [List.cons_append, Stylesheet.signed?, if_neg hc, ← List.cons_append, hread z hz]

theorem rereads_signed? : Rereads (signed? unsigned?) :=
  rereads_unsigned?.signed? verbatim_unsigned?

theorem rereads_number? : Rereads number? := by
  refine Rereads.signed? ?_ ?_
  · intro s n r h
    dsimp only at h ⊢
    split at h
    · next found hf =>
      cases h
      obtain ⟨hne, hread⟩ := rereads_unsigned? hf
      exact ⟨hne, fun z hz => by simp only [hread z hz]⟩
    · obtain ⟨hne, hread⟩ := rereads_fraction? h
      refine ⟨hne, fun z hz => ?_⟩
      -- a fraction starts with its point, so no digits are read in front of it
      have hnone : unsigned? (n ++ z) = none := by
        obtain ⟨ds, rfl, -, -⟩ := fraction?_eq_some h
        rfl
      simp only [hnone, hread z hz]
  · intro s n r h
    dsimp only at h
    split at h
    · next found hf =>
      cases h
      exact verbatim_unsigned? hf
    · exact verbatim_fraction? h

/-- Whether a character may stand in a number. -/
def isNumberChar (c : Char) : Bool := isDigit c || c == '.' || c == '-'

theorem isNumberChar_of_mem_fraction? {s n r : List Char} (h : fraction? s = some (n, r)) :
    ∀ c ∈ n, isNumberChar c = true := by
  obtain ⟨ds, rfl, -, hds⟩ := fraction?_eq_some h
  rintro c (_ | ⟨_, hc⟩)
  · decide
  · rw [isNumberChar, hds c hc]
    rfl

theorem isNumberChar_of_mem_unsigned? {s n r : List Char} (h : unsigned? s = some (n, r)) :
    ∀ c ∈ n, isNumberChar c = true := by
  rw [unsigned?] at h
  split at h
  · cases h
  · next ds r' hd =>
    have hds : ∀ c ∈ ds, isNumberChar c = true := by
      intro c hc
      rw [isNumberChar, (digits?_eq_some hd).2 c hc]
      rfl
    split at h
    · next f rest hf =>
      cases h
      intro c hc
      rcases List.mem_append.1 hc with hc | hc
      · exact hds c hc
      · exact isNumberChar_of_mem_fraction? hf c hc
    · cases h
      exact hds

theorem isNumberChar_of_mem_signed? {p : Recogniser (List Char)}
    (hp : ∀ s n r, p s = some (n, r) → ∀ c ∈ n, isNumberChar c = true) {s n r : List Char}
    (h : signed? p s = some (n, r)) : ∀ c ∈ n, isNumberChar c = true := by
  cases s with
  | nil => exact hp _ _ _ h
  | cons c s =>
    simp only [signed?] at h
    split at h
    · split at h
      · next n' rest hn =>
        cases h
        rintro d (_ | ⟨_, hd⟩)
        · decide
        · exact hp _ _ _ hn d hd
      · cases h
    · exact hp _ _ _ h

theorem isNumberChar_of_mem_number? {s n r : List Char} (h : number? s = some (n, r)) :
    ∀ c ∈ n, isNumberChar c = true := by
  refine isNumberChar_of_mem_signed? ?_ h
  intro s n r h
  split at h
  · next found hf =>
    cases h
    exact isNumberChar_of_mem_unsigned? hf
  · exact isNumberChar_of_mem_fraction? h

theorem skipPixels_nil : skipPixels [] = [] := rfl

theorem skipPixels_blank (s : List Char) : skipPixels (' ' :: s) = ' ' :: s := rfl

/-! ### Sizes -/

/-- The token `t'` is the token `t`, or `t` is a number with a unit of pixels and `t'` the number. -/
def IsStripped (t t' : List Char) : Prop :=
  t = t' ∨ numericToken? t = some t' ∧ ∃ u, u.map fold = "px".toList ∧ t = t' ++ u

theorem numericToken?_eq_some_iff {t n : List Char} :
    numericToken? t = some n ↔ ∃ rest, number? t = some (n, rest) ∧ skipPixels rest = [] := by
  rw [numericToken?]
  constructor
  · intro h
    split at h
    · next n' rest hn =>
      split at h
      · next hrest =>
        cases h
        exact ⟨rest, hn, List.isEmpty_iff.1 hrest⟩
      · cases h
    · cases h
  · rintro ⟨rest, hn, hrest⟩
    rw [hn]
    dsimp only
    rw [if_pos (List.isEmpty_iff.2 hrest)]

/-- What the unit of pixels is skipped of is nothing but that unit, or empty already. -/
theorem skipPixels_eq_nil {s : List Char} (h : skipPixels s = []) :
    s = [] ∨ s.map fold = "px".toList := by
  rw [skipPixels] at h
  cases hpx : afterFolded? "px".toList s with
  | none =>
    rw [hpx, Option.getD_none] at h
    exact Or.inl h
  | some r =>
    rw [hpx, Option.getD_some] at h
    obtain ⟨u, hu, rfl⟩ := afterFolded?_eq_some_iff.1 hpx
    exact Or.inr (by rw [h, List.append_nil, hu])

/-- A numeric token is its number, with a unit of pixels behind it or without. -/
theorem numericToken?_eq_some {t n : List Char} (h : numericToken? t = some n) :
    n ≠ [] ∧ IsStripped t n ∧ numericToken? n = some n := by
  obtain ⟨rest, hn, hrest⟩ := numericToken?_eq_some_iff.1 h
  obtain ⟨hne, hread⟩ := rereads_number? hn
  have htext := verbatim_number? hn
  refine ⟨hne, ?_, ?_⟩
  · rcases skipPixels_eq_nil hrest with hempty | hpx
    · exact Or.inl (by rw [htext, hempty, List.append_nil])
    · exact Or.inr ⟨h, rest, hpx, htext⟩
  · have hagain := hread [] endsNumber_nil
    rw [List.append_nil] at hagain
    exact numericToken?_eq_some_iff.2 ⟨[], hagain, skipPixels_nil⟩

/-- A token with a character that neither numbers nor units have is no number. -/
theorem numericToken?_eq_none_of_mem {t : List Char} {c : Char} (hc : c ∈ t)
    (hnumber : isNumberChar c = false) (hunit : fold c ∉ "px".toList) :
    numericToken? t = none := by
  by_contra h
  obtain ⟨n, h⟩ := Option.ne_none_iff_exists'.1 h
  obtain ⟨rest, hn, hrest⟩ := numericToken?_eq_some_iff.1 h
  rw [verbatim_number? hn] at hc
  rcases List.mem_append.1 hc with hc | hc
  · rw [isNumberChar_of_mem_number? hn c hc] at hnumber
    cases hnumber
  · rcases skipPixels_eq_nil hrest with rfl | hpx
    · cases hc
    · exact hunit (hpx ▸ List.mem_map_of_mem hc)

theorem numericToken?_bareToken (t : List Char) :
    numericToken? (bareToken t) = numericToken? t := by
  rw [bareToken]
  cases h : numericToken? t with
  | none => exact h
  | some n => exact (numericToken?_eq_some h).2.2

theorem bareToken_bareToken (t : List Char) : bareToken (bareToken t) = bareToken t := by
  rw [bareToken, numericToken?_bareToken]
  cases h : numericToken? t with
  | none => rfl
  | some n => rw [bareToken, h]; rfl

theorem isStripped_bareToken (t : List Char) : IsStripped t (bareToken t) := by
  rw [bareToken]
  cases h : numericToken? t with
  | none => exact Or.inl rfl
  | some n => exact (numericToken?_eq_some h).2.1

theorem bareToken_ne_nil {t : List Char} (ht : t ≠ []) : bareToken t ≠ [] := by
  rw [bareToken]
  cases h : numericToken? t with
  | none => exact ht
  | some n => exact (numericToken?_eq_some h).1

theorem mem_of_mem_bareToken {t : List Char} {c : Char} (h : c ∈ bareToken t) : c ∈ t := by
  rcases isStripped_bareToken t with ht | ⟨-, u, -, ht⟩
  · exact ht ▸ h
  · rw [ht]
    exact List.mem_append_left u h

/-- The words of a value without their units are words. -/
theorem words_joinWith_map_bareToken (v : List Char) :
    words (joinWith [' '] ((words v).map bareToken)) = (words v).map bareToken := by
  refine words_joinWith_words fun t' ht' => ?_
  obtain ⟨t, ht, rfl⟩ := List.mem_map.1 ht'
  obtain ⟨hne, hblank⟩ := not_isBlank_of_mem_words ht
  exact ⟨bareToken_ne_nil hne, fun c hc => hblank c (mem_of_mem_bareToken hc)⟩

theorem numericValue?_eq_some_iff {v w : List Char} :
    numericValue? v = some w ↔ ((words v).any fun t => (numericToken? t).isSome) = true ∧
      w = joinWith [' '] ((words v).map bareToken) := by
  rw [numericValue?]
  split
  · next hany => rw [Option.some_inj, iff_true_intro hany, true_and, eq_comm]
  · next hany => simp [hany]

theorem numericValue?_trim (v : List Char) : numericValue? (trim v) = numericValue? v := by
  rw [numericValue?, words_trim, numericValue?]

/-- The tokens of an argument are those of the value without their units. -/
theorem words_of_numericValue? {v w : List Char} (h : numericValue? v = some w) :
    words w = (words v).map bareToken := by
  obtain ⟨-, rfl⟩ := numericValue?_eq_some_iff.1 h
  exact words_joinWith_map_bareToken v

theorem numericValue?_stable {v w : List Char} (h : numericValue? v = some w) :
    numericValue? w = some w := by
  have hwords := words_of_numericValue? h
  obtain ⟨hany, hw⟩ := numericValue?_eq_some_iff.1 h
  refine numericValue?_eq_some_iff.2 ⟨?_, ?_⟩
  · rw [hwords, List.any_map]
    simpa only [Function.comp_def, numericToken?_bareToken] using hany
  · rw [hwords, List.map_map]
    simpa only [Function.comp_def, bareToken_bareToken] using hw

end Stylesheet
end SceneMarkup
