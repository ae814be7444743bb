import SceneMarkup.Proofs.Json.Numbers
import SceneMarkup.Proofs.Json.Strings

/-!
# The characters of a JSON text

What stands between the brackets, commas and colons of a JSON text is made of few characters: numbers
of digits, signs, points and the letter of an exponent, and strings of anything but line breaks.

## Main definitions

* `isNumberChar` — the characters of numbers.

## Main results

* `isNumberChar_of_mem_numberText` — a number has no other characters.
* `newline_not_mem_stringText` — a string has no line breaks.
-/

namespace SceneMarkup

/-- Whether numbers are written with a character; those that are not finite are written as
`null`. -/
def isNumberChar (c : Char) : Bool :=
  c.isDigit || ['+', '-', '.', 'e', 'n', 'u', 'l'].contains c

namespace Decimal

theorem isNumberChar_of_isDigit {c : Char} (h : c.isDigit = true) : isNumberChar c = true := by
  rw [isNumberChar, h, Bool.true_or]

theorem isNumberChar_of_mem_toDigits (n : Nat) : ∀ c ∈ Nat.toDigits 10 n, isNumberChar c = true := by
  intro c hc
  exact isNumberChar_of_isDigit (Json.isDigit_of_mem_toDigits hc)

theorem isNumberChar_of_mem_replicate (n : Nat) :
    ∀ c ∈ List.replicate n '0', isNumberChar c = true := by
  intro c hc
  rw [List.eq_of_mem_replicate hc]
  rfl

variable {digits : List Char}

theorem isNumberChar_of_mem_withoutZeros (h : ∀ c ∈ digits, isNumberChar c = true) :
    ∀ c ∈ withoutZeros digits, isNumberChar c = true := by
  cases digits with
  | nil => exact h
  | cons d ds =>
    intro c hc
    rcases List.mem_cons.1 hc with rfl | hc
    · exact h c List.mem_cons_self
    · have hmem := (List.dropWhile_sublist _).subset (List.mem_reverse.1 hc)
      exact h c (List.mem_cons_of_mem d (List.mem_reverse.1 hmem))

theorem isNumberChar_of_mem_plain (h : ∀ c ∈ digits, isNumberChar c = true) (e : Int) :
    ∀ c ∈ plain digits e, isNumberChar c = true := by
  have hpoint : ∀ c ∈ "0.".toList, isNumberChar c = true := List.all_eq_true.1 (by decide)
  have hzero : ∀ c ∈ ".0".toList, isNumberChar c = true := List.all_eq_true.1 (by decide)
  rw [plain]
  split
  · exact List.forall_mem_append.2
      ⟨List.forall_mem_append.2 ⟨hpoint, isNumberChar_of_mem_replicate _⟩, h⟩
  · dsimp only
    split
    · exact List.forall_mem_append.2
        ⟨List.forall_mem_append.2 ⟨h, isNumberChar_of_mem_replicate _⟩, hzero⟩
    · -- the digits stand on both sides of the point
      refine List.forall_mem_append.2 ⟨fun c hc => h c (List.mem_of_mem_take hc), ?_⟩
      exact List.forall_mem_cons.2 ⟨rfl, fun c hc => h c (List.mem_of_mem_drop hc)⟩

theorem isNumberChar_of_mem_exponentText (e : Int) :
    ∀ c ∈ exponentText e, isNumberChar c = true := by
  rw [exponentText]
  split
  · exact List.forall_mem_cons.2 ⟨rfl, isNumberChar_of_mem_toDigits _⟩
  · exact List.forall_mem_cons.2 ⟨rfl, isNumberChar_of_mem_toDigits _⟩

theorem isNumberChar_of_mem_scientific (h : ∀ c ∈ digits, isNumberChar c = true) (e : Int) :
    ∀ c ∈ scientific digits e, isNumberChar c = true := by
  have hexponent : ∀ c ∈ 'e' :: exponentText e, isNumberChar c = true :=
    List.forall_mem_cons.2 ⟨rfl, isNumberChar_of_mem_exponentText e⟩
  unfold scientific
  split
  · exact h
  · exact List.forall_mem_cons.2 ⟨h _ List.mem_cons_self, hexponent⟩
  · obtain ⟨hfirst, hrest⟩ := List.forall_mem_cons.1 h
    exact List.forall_mem_cons.2
      ⟨hfirst, List.forall_mem_cons.2 ⟨rfl, List.forall_mem_append.2 ⟨hrest, hexponent⟩⟩⟩

theorem isNumberChar_of_mem_render (l : Layout) (d : Decimal) :
    ∀ c ∈ l.render d, isNumberChar c = true := by
  have hdigits := isNumberChar_of_mem_withoutZeros (isNumberChar_of_mem_toDigits d.coefficient)
  rw [Layout.render]
  split
  · exact isNumberChar_of_mem_plain hdigits _
  · exact isNumberChar_of_mem_scientific hdigits _

theorem isNumberChar_of_mem_floatText (x : Float) :
    ∀ c ∈ (floatText x).toList, isNumberChar c = true := by
  have hnull : ∀ c ∈ "null".toList, isNumberChar c = true := List.all_eq_true.1 (by decide)
  rw [floatText, String.toList_ofList]
  -- a number that is not finite has no digits, and `null` instead
  cases h : decode x with
  | finite negative m q narrow =>
    have hdigits : ∀ c ∈ (if m = 0 then layout.render ⟨0, 0⟩ else layout.render (shortest m q narrow)),
        isNumberChar c = true := by
      split
      · exact isNumberChar_of_mem_render _ _
      · exact isNumberChar_of_mem_render _ _
    rw [Binary.text?, Option.getD_some]
    split
    · exact List.forall_mem_cons.2 ⟨rfl, hdigits⟩
    · exact hdigits
  | nan => exact hnull
  | infinite negative => exact hnull

end Decimal

namespace Json

/-- **Numbers.**

Whatever the number is, it is written with the characters of numbers. -/
theorem isNumberChar_of_mem_numberText (n : Number) :
    ∀ c ∈ numberText n, isNumberChar c = true := by
  cases n with
  | integer i =>
    cases i with
    | ofNat k =>
      show ∀ c ∈ (Nat.repr k).toList, isNumberChar c = true
      rw [Nat.toList_repr]
      exact Decimal.isNumberChar_of_mem_toDigits k
    | negSucc k =>
      show ∀ c ∈ ("-" ++ Nat.repr (k + 1)).toList, isNumberChar c = true
      rw [String.toList_append, Nat.toList_repr]
      have hsign : ∀ c ∈ "-".toList, isNumberChar c = true := List.all_eq_true.1 (by decide)
      exact List.forall_mem_append.2 ⟨hsign, Decimal.isNumberChar_of_mem_toDigits _⟩
  | real x => exact Decimal.isNumberChar_of_mem_floatText x

/-- A line break inside a string is written as an escape. -/
theorem newline_not_mem_escaped (c : Char) : '\n' ∉ escaped c := by
  rcases escaped_cases c with ⟨x, -, hx, h⟩ | ⟨hc, h⟩ | ⟨-, -, hc, h⟩
  · -- no escape is by a line break
    have hne : x ≠ '\n' := by
      rintro rfl
      cases hx
    rw [h]
    simp [hne.symm]
  · have hall : ∀ k < 0x20, '\n' ∉ '\\' :: 'u' :: '0' :: '0' :: hexByte k := by decide
    rw [h]
    exact hall c.toNat hc
  · rw [h, List.mem_singleton]
    rintro rfl
    exact hc (by decide)

/-- **Strings.**

Whatever the string is, it is written on one line. -/
theorem newline_not_mem_stringText (s : String) : '\n' ∉ stringText s := by
  intro h
  rw [stringText, List.cons_append] at h
  rcases List.mem_cons.1 h with h | h
  · exact absurd h (by decide)
  · rcases List.mem_append.1 h with h | h
    · obtain ⟨c, -, hc⟩ := List.mem_flatMap.1 h
      exact newline_not_mem_escaped c hc
    · exact absurd h (by decide)

end Json
end SceneMarkup
