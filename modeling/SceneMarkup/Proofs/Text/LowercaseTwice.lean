import SceneMarkup.Proofs.Text.Lowercase
import SceneMarkup.Text.Blank

/-!
# Lower-casing twice

The lower-case forms of the table are no capitals themselves, so lower-casing finds nothing to do in
its own result.

## Main definitions

* `CaseRange.firstForm`, `CaseRange.lastForm` — where a range is mapped to.
* `IsLower` — a character that lower-casing keeps wherever it stands.

## Main results

* `toNat_lowerChar` — the lower-case form of a character has the code point that the table tells.
* `lowerChar_lowerChar` — a lower-case form is its own.
* `isBlank_lowerChar` — lower-casing makes no blanks.
* `isLower_of_mem_lower`, `lower_of_isLower` — **lower-casing keeps what it has made**, and all
  texts of such characters.
-/

namespace SceneMarkup
namespace Text

/-! ### What the table tells about the forms -/

/-- The lower-case form of the first code point of a range. -/
def CaseRange.firstForm (r : CaseRange) : Nat := (r.first + r.shift).toNat

/-- The lower-case form of the last code point of a range. -/
def CaseRange.lastForm (r : CaseRange) : Nat := (r.last + r.shift).toNat

/-- Whether the ranges that reach into the forms of a range take every second code point only, and
those between the forms. -/
def CaseRange.isApart (r : CaseRange) : Bool :=
  (lowerRanges.filter fun r' =>
      Nat.ble r.firstForm r'.last && Nat.ble r'.first r.lastForm).all fun r' =>
    (r.step == 2 || r.first == r.last) && r'.step == 2 && (r.firstForm + r'.first) % 2 == 1

/-- No form of a range is in a range. -/
theorem isApart_lowerRanges : ∀ r ∈ lowerRanges, r.isApart = true := by
  decide +kernel

/-- The forms are code points of characters. -/
theorem valid_lowerRanges : ∀ r ∈ lowerRanges,
    r.first ≤ r.last ∧ 0 ≤ (r.first : Int) + r.shift ∧
      (r.lastForm < 0xD800 ∨ 0xE000 ≤ r.firstForm ∧ r.lastForm < 0x110000) := by
  decide +kernel

/-- The blanks that are not ASCII, and the capital I with a dot above. -/
def specialCodes : List Nat :=
  [0x85, 0xA0, 0x130, 0x1680, 0x2000, 0x2001, 0x2002, 0x2003, 0x2004, 0x2005, 0x2006, 0x2007, 0x2008,
   0x2009, 0x200A, 0x2028, 0x2029, 0x202F, 0x205F, 0x3000]

theorem not_special_lowerRanges : ∀ r ∈ lowerRanges, ∀ n ∈ specialCodes,
    n < r.firstForm ∨ r.lastForm < n := by
  decide +kernel

theorem lowerCode_of_not_holds {n : Nat} {rs : List CaseRange}
    (h : ∀ r ∈ rs, r.holds n = false) : lowerCode n rs = n := by
  induction rs with
  | nil => rfl
  | cons r rs ih =>
    rw [lowerCode, h r List.mem_cons_self, if_neg Bool.false_ne_true]
    exact ih fun r' hr' => h r' (List.mem_cons_of_mem _ hr')

/-- A code point is in no range, or it is mapped by one. -/
theorem lowerCode_cases (n : Nat) (rs : List CaseRange) :
    lowerCode n rs = n ∧ (∀ r ∈ rs, r.holds n = false) ∨
      ∃ r ∈ rs, r.holds n = true ∧ lowerCode n rs = (n + r.shift).toNat := by
  induction rs with
  | nil => exact Or.inl ⟨rfl, by simp⟩
  | cons r rs ih =>
    rw [lowerCode]
    cases hr : r.holds n with
    | true => exact Or.inr ⟨r, List.mem_cons_self, hr, rfl⟩
    | false =>
      rcases ih with ⟨heq, hall⟩ | ⟨r', hr', hholds, heq⟩
      · refine Or.inl ⟨heq, fun x hx => ?_⟩
        rcases List.mem_cons.1 hx with rfl | hx
        · exact hr
        · exact hall x hx
      · exact Or.inr ⟨r', List.mem_cons_of_mem _ hr', hholds, heq⟩

theorem CaseRange.holds_iff (r : CaseRange) (n : Nat) :
    r.holds n = true ↔ r.first ≤ n ∧ n ≤ r.last ∧ (n - r.first) % r.step = 0 := by
  simp [CaseRange.holds, and_assoc]

/-- The form of a code point in a range lies among the forms of the range. -/
theorem form_le {r : CaseRange} (hr : r ∈ lowerRanges) {n : Nat} (h : r.holds n = true) :
    r.firstForm ≤ (n + r.shift).toNat ∧ (n + r.shift).toNat ≤ r.lastForm := by
  obtain ⟨h₁, h₂, -⟩ := (r.holds_iff n).1 h
  obtain ⟨-, hpos, -⟩ := valid_lowerRanges r hr
  rw [CaseRange.firstForm, CaseRange.lastForm]
  omega

/-- A form is in no range. -/
theorem not_holds_form {r r' : CaseRange} (hr : r ∈ lowerRanges) (hr' : r' ∈ lowerRanges) {n : Nat}
    (h : r.holds n = true) : r'.holds (n + r.shift).toNat = false := by
  rw [Bool.eq_false_iff]
  intro hform
  obtain ⟨hfirst, hlast⟩ := form_le hr h
  obtain ⟨h₁, h₂, h₃⟩ := (r.holds_iff n).1 h
  obtain ⟨h₄, h₅, h₆⟩ := (r'.holds_iff _).1 hform
  obtain ⟨hle, hpos, -⟩ := valid_lowerRanges r hr
  -- the range of the form reaches into the forms of `r`, so it is one of those that are checked
  have hapart := isApart_lowerRanges r hr
  rw [CaseRange.isApart, List.all_eq_true] at hapart
  have hcond := hapart r' (List.mem_filter.2 ⟨hr', by simp; omega⟩)
  simp only [Bool.and_eq_true, Bool.or_eq_true, beq_iff_eq] at hcond
  obtain ⟨⟨hstep, hstep'⟩, hparity⟩ := hcond
  rw [CaseRange.firstForm] at hparity hfirst
  rw [hstep'] at h₆
  -- the form is an even number of steps away from both ends, which the parities rule out
  rcases hstep with hstep | hstep
  · rw [hstep] at h₃
    omega
  · omega

/-- Looking up the form of a code point gives the form. -/
theorem lowerCode_lowerCode (n : Nat) :
    lowerCode (lowerCode n lowerRanges) lowerRanges = lowerCode n lowerRanges := by
  rcases lowerCode_cases n lowerRanges with ⟨heq, -⟩ | ⟨r, hr, hholds, heq⟩
  · rw [heq, heq]
  · rw [heq]
    exact lowerCode_of_not_holds fun r' hr' => not_holds_form hr hr' hholds

/-! ### Single characters -/

theorem isValidChar_lowerCode (c : Char) : (lowerCode c.toNat lowerRanges).isValidChar := by
  rcases lowerCode_cases c.toNat lowerRanges with ⟨heq, -⟩ | ⟨r, hr, hholds, heq⟩
  · rw [heq]
    exact c.valid
  · obtain ⟨hfirst, hlast⟩ := form_le hr hholds
    obtain ⟨-, -, hvalid⟩ := valid_lowerRanges r hr
    rw [heq, Nat.isValidChar]
    omega

/-- The lower-case form of a character has the code point that the table tells. -/
theorem toNat_lowerChar {c : Char} (h : 0x80 ≤ c.toNat) :
    (lowerChar c).toNat = lowerCode c.toNat lowerRanges := by
  rw [lowerChar, if_neg (by omega), Char.ofNat, dif_pos (isValidChar_lowerCode c)]
  rfl

/-- What holds of all ASCII code points holds of all ASCII characters. -/
theorem forall_ascii {P : Char → Prop} (h : ∀ n < 0x80, P (Char.ofNat n)) {c : Char}
    (hc : c.toNat < 0x80) : P c := by
  have := h c.toNat hc
  rwa [Char.ofNat_toNat] at this

theorem toLower_toLower_of_ascii {c : Char} (hc : c.toNat < 0x80) :
    c.toLower.toLower = c.toLower ∧ c.toLower.toNat < 0x80 :=
  forall_ascii (P := fun c => c.toLower.toLower = c.toLower ∧ c.toLower.toNat < 0x80)
    (by decide) hc

/-- A lower-case form is its own. -/
theorem lowerChar_lowerChar (c : Char) : lowerChar (lowerChar c) = lowerChar c := by
  by_cases hc : c.toNat < 0x80
  · have h := toLower_toLower_of_ascii hc
    rw [lowerChar_of_ascii hc, lowerChar_of_ascii h.2, h.1]
  · rcases lowerChar_of_not_ascii (by omega : 0x80 ≤ c.toNat) with hk | h0 | hn
    -- the kelvin sign, and what the table does not map to a character
    · rw [hk]
      rfl
    · rw [h0]
      rfl
    -- any other form is not ASCII, so the table is looked up once more
    · have hcode := toNat_lowerChar (by omega : 0x80 ≤ c.toNat)
      rw [← Char.toNat_inj, toNat_lowerChar hn, hcode, lowerCode_lowerCode]

theorem isBlank_eq_true_iff (c : Char) :
    isBlank c = true ↔ (9 ≤ c.toNat ∧ c.toNat ≤ 13) ∨ c.toNat = 0x20 ∨
      (c.toNat ∈ specialCodes ∧ c.toNat ≠ 0x130) := by
  simp only [isBlank, specialCodes, Bool.or_eq_true, Bool.and_eq_true, decide_eq_true_eq,
    beq_iff_eq, List.mem_cons, List.not_mem_nil, or_false]
  omega

/-- A character whose form is blank, or the capital I with a dot above, is that form. -/
theorem eq_of_lowerChar_special {c : Char} (h : (lowerChar c).toNat ∈ specialCodes) :
    lowerChar c = c := by
  have hhigh : ∀ n ∈ specialCodes, 0x80 ≤ n := by decide
  by_cases hc : c.toNat < 0x80
  · have hascii := (toLower_toLower_of_ascii hc).2
    rw [← lowerChar_of_ascii hc] at hascii
    exact absurd (hhigh _ h) (by omega)
  · have hcode := toNat_lowerChar (by omega : 0x80 ≤ c.toNat)
    rcases lowerCode_cases c.toNat lowerRanges with ⟨heq, -⟩ | ⟨r, hr, hholds, heq⟩
    · rw [← Char.toNat_inj, hcode, heq]
    · -- a range has no such code point among its forms
      obtain ⟨hfirst, hlast⟩ := form_le hr hholds
      have := not_special_lowerRanges r hr _ h
      omega

theorem isBlank_of_toLower {c : Char} (hc : c.toNat < 0x80) :
    isBlank c.toLower = true → isBlank c = true :=
  forall_ascii (P := fun c => isBlank c.toLower = true → isBlank c = true) (by decide) hc

/-- Lower-casing makes no blanks. -/
theorem isBlank_lowerChar {c : Char} (h : isBlank c = false) : isBlank (lowerChar c) = false := by
  rw [Bool.eq_false_iff]
  intro hblank
  by_cases hspecial : (lowerChar c).toNat ∈ specialCodes
  · rw [eq_of_lowerChar_special hspecial, h] at hblank
    cases hblank
  · -- the form is ASCII, so it is the form of an ASCII letter or the `k` of the kelvin sign
    have hascii : (lowerChar c).toNat < 0x80 := by
      rcases (isBlank_eq_true_iff _).1 hblank with h | h | ⟨h, -⟩
      · omega
      · omega
      · exact absurd h hspecial
    by_cases hc : c.toNat < 0x80
    · rw [lowerChar_of_ascii hc] at hblank
      rw [isBlank_of_toLower hc hblank] at h
      cases h
    · rcases lowerChar_of_not_ascii (by omega : 0x80 ≤ c.toNat) with hk | h0 | hn
      · rw [hk] at hblank
        cases hblank
      · rw [h0] at hblank
        cases hblank
      · omega

/-! ### Texts -/

/-- A character that lower-casing keeps wherever it stands. -/
structure IsLower (c : Char) : Prop where
  /-- It is its own lower-case form. -/
  form : lowerChar c = c
  /-- It is no capital sigma. -/
  sigma : c ≠ '\u03A3'
  /-- It is no capital I with a dot above. -/
  dotted : c ≠ '\u0130'

theorem isLower_lowerChar {c : Char} (h : c ≠ '\u0130') : IsLower (lowerChar c) where
  form := lowerChar_lowerChar c
  sigma := by
    intro hsigma
    have := lowerChar_lowerChar c
    rw [hsigma] at this
    exact absurd this (by decide +kernel)
  dotted := by
    intro hdotted
    have hmem : (lowerChar c).toNat ∈ specialCodes := by
      rw [hdotted]
      decide
    rw [eq_of_lowerChar_special hmem] at hdotted
    exact h hdotted

theorem isLower_of_mem_lowerAt {before after : List Char} {c d : Char}
    (h : d ∈ lowerAt before c after) : IsLower d := by
  rw [lowerAt] at h
  split at h
  · split at h
    · obtain rfl := List.mem_singleton.1 h
      exact ⟨by decide +kernel, by decide, by decide⟩
    · obtain rfl := List.mem_singleton.1 h
      exact ⟨by decide +kernel, by decide, by decide⟩
  · split at h
    · rcases List.mem_cons.1 h with rfl | h
      · exact ⟨by decide +kernel, by decide, by decide⟩
      · obtain rfl := List.mem_singleton.1 h
        exact ⟨by decide +kernel, by decide, by decide⟩
    · next hdotted =>
      obtain rfl := List.mem_singleton.1 h
      exact isLower_lowerChar hdotted

theorem isLower_of_mem_lowerAfter {before s : List Char} {d : Char}
    (h : d ∈ lowerAfter before s) : IsLower d := by
  induction s generalizing before with
  | nil => cases h
  | cons c s ih =>
    rw [lowerAfter] at h
    rcases List.mem_append.1 h with h | h
    · exact isLower_of_mem_lowerAt h
    · exact ih h

theorem isLower_of_mem_lower {s : List Char} {d : Char} (h : d ∈ lower s) : IsLower d :=
  isLower_of_mem_lowerAfter h

theorem lowerAt_of_isLower {c : Char} (h : IsLower c) (before after : List Char) :
    lowerAt before c after = [c] := by
  rw [lowerAt, if_neg h.sigma, if_neg h.dotted, h.form]

/-- A text of lower-case characters is kept. -/
theorem lower_of_isLower {s : List Char} (h : ∀ c ∈ s, IsLower c) : lower s = s := by
  suffices key : ∀ before, lowerAfter before s = s from key []
  induction s with
  | nil => exact fun _ => rfl
  | cons c s ih =>
    intro before
    rw [lowerAfter, lowerAt_of_isLower (h c List.mem_cons_self),
      ih (fun d hd => h d (List.mem_cons_of_mem _ hd))]
    rfl

end Text
end SceneMarkup
