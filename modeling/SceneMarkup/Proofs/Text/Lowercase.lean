import SceneMarkup.Text.Lowercase

/-!
# What lower-casing makes

Lower-casing makes few ASCII characters of others: the small letters of their capitals, `i` of the
capital I with a dot above, and `k` of the kelvin sign.

## Main definitions

* `IsUnmade` — a kind of ASCII characters of which lower-casing makes none.

## Main results

* `countP_lower_le` — **a text has no more characters of such a kind in lower case.**
-/

namespace SceneMarkup
namespace Text

/-! ### Single characters -/

theorem lowerCode_eq (n : Nat) (rs : List CaseRange) :
    lowerCode n rs = n ∨ ∃ r ∈ rs, r.first ≤ n ∧ n ≤ r.last ∧
      lowerCode n rs = (n + r.shift).toNat := by
  induction rs with
  | nil => exact Or.inl rfl
  | cons r rs ih =>
    rw [lowerCode]
    split
    · next h =>
      simp only [CaseRange.holds, Bool.and_eq_true, decide_eq_true_eq] at h
      exact Or.inr ⟨r, List.mem_cons_self, h.1.1, h.1.2, rfl⟩
    · rcases ih with ih | ⟨r', hr', h⟩
      · exact Or.inl ih
      · exact Or.inr ⟨r', List.mem_cons_of_mem _ hr', h⟩

/-- No range but that of the kelvin sign reaches down to ASCII. -/
theorem ascii_lowerRanges : ∀ r ∈ lowerRanges,
    0x80 ≤ (r.first : Int) + r.shift ∨
      r.first = 0x212A ∧ r.last = 0x212A ∧ (r.first : Int) + r.shift = 0x6B := by
  decide +kernel

theorem toNat_ofNat_of_le {n : Nat} (h : 0x80 ≤ n) :
    Char.ofNat n = '\x00' ∨ 0x80 ≤ (Char.ofNat n).toNat := by
  by_cases hv : n.isValidChar
  · have hn : Char.ofNat n = Char.ofNatAux n hv := dif_pos hv
    rw [hn]
    exact Or.inr h
  · exact Or.inl (dif_neg hv)

/-- Lower-casing makes at most a `k` of a character that is not ASCII, and the null character only
where there is no lower-case character. -/
theorem lowerChar_of_not_ascii {c : Char} (h : 0x80 ≤ c.toNat) :
    lowerChar c = 'k' ∨ lowerChar c = '\x00' ∨ 0x80 ≤ (lowerChar c).toNat := by
  rw [lowerChar, if_neg (by omega)]
  rcases lowerCode_eq c.toNat lowerRanges with hn | ⟨r, hr, hfirst, hlast, hn⟩
  · rw [hn]
    exact Or.inr (toNat_ofNat_of_le h)
  · rw [hn]
    rcases ascii_lowerRanges r hr with hr | ⟨h₁, h₂, h₃⟩
    · exact Or.inr (toNat_ofNat_of_le (by omega))
    · have hk : ((c.toNat : Int) + r.shift).toNat = 0x6B := by omega
      rw [hk]
      exact Or.inl rfl

/-! ### Kinds of characters -/

/-- A kind of ASCII characters of which lower-casing makes none out of others. -/
structure IsUnmade (q : Char → Bool) : Prop where
  /-- They are ASCII. -/
  ascii : ∀ c, q c = true → c.toNat < 0x80
  /-- None of them is made of another ASCII character. -/
  toLower : ∀ n < 0x80, q (Char.ofNat n).toLower = true → q (Char.ofNat n) = true
  /-- The hyphen is not among them. -/
  hyphen : q '-' = false
  /-- The letters that are made of others are not among them. -/
  made : q 'i' = false ∧ q 'k' = false ∧ q '\x00' = false

variable {q : Char → Bool}

theorem IsUnmade.of_lowerChar (hq : IsUnmade q) {c : Char} (h : q (lowerChar c) = true) :
    q c = true := by
  by_cases hc : c.toNat < 0x80
  · rw [lowerChar_of_ascii hc] at h
    have := hq.toLower c.toNat hc
    rw [Char.ofNat_toNat] at this
    exact this h
  · rcases lowerChar_of_not_ascii (by omega : 0x80 ≤ c.toNat) with hk | h0 | hn
    · rw [hk, hq.made.2.1] at h
      cases h
    · rw [h0, hq.made.2.2] at h
      cases h
    · exact absurd (hq.ascii _ h) (by omega)

theorem IsUnmade.eq_false (hq : IsUnmade q) {c : Char} (h : 0x80 ≤ c.toNat) : q c = false := by
  cases hc : q c with
  | false => rfl
  | true => exact absurd (hq.ascii c hc) (by omega)

theorem countP_lowerAt_le (hq : IsUnmade q) (before after : List Char) (c : Char) :
    (lowerAt before c after).countP q ≤ [c].countP q := by
  rw [lowerAt]
  split
  · have hfinal : q '\u03C2' = false := hq.eq_false (by decide)
    have hother : q '\u03C3' = false := hq.eq_false (by decide)
    split
    · simp [hfinal]
    · simp [hother]
  · split
    · have hdot : q '\u0307' = false := hq.eq_false (by decide)
      simp [hq.made.1, hdot]
    · cases h : q (lowerChar c) with
      | false => simp [h]
      | true => simp [h, hq.of_lowerChar h]

theorem countP_lowerAfter_le (hq : IsUnmade q) (before s : List Char) :
    (lowerAfter before s).countP q ≤ s.countP q := by
  induction s generalizing before with
  | nil => exact Nat.le_refl _
  | cons c s ih =>
    have hc := countP_lowerAt_le hq before s c
    have hs := ih (c :: before)
    have hsplit : c :: s = [c] ++ s := rfl
    rw [lowerAfter, hsplit, List.countP_append, List.countP_append]
    omega

/-- **A text has no more characters of an unmade kind in lower case.** -/
theorem countP_lower_le (hq : IsUnmade q) (s : List Char) : (lower s).countP q ≤ s.countP q :=
  countP_lowerAfter_le hq [] s

end Text
end SceneMarkup
