import SceneMarkup.Proofs.Json.Decimals
import SceneMarkup.Proofs.Json.Numbers
import SceneMarkup.Proofs.Json.Reading

/-!
# Values that are read hold finite numbers

Every number that the reader of JSON puts into a value is finite: it is an integer of sixty-four
bits or a decimal.  Arrays and objects are built of values that are read, so they hold finite
numbers too.

## Main definitions

* `AllFinite` — values with finite numbers only.

## Main results

* `isFinite_of_readNumber` — numbers.
* **`allFinite_of_read`** — the value of a text holds finite numbers only.
-/

namespace SceneMarkup
namespace Json

/-! ### Numbers -/

theorem isFinite_of_floatOfParts {negative : Bool} {whole fraction : List Char} {e : Int}
    {c c' : Cursor} {n : Number}
    (h : floatOfParts negative whole fraction e c = .ok (n, c')) : n.toFloat.isFinite = true := by
  unfold floatOfParts at h
  dsimp only at h
  split at h
  next x hx =>
    cases h
    exact isFinite_of_decimalFloat? hx
  next => cases h

theorem isFinite_of_integerOfParts {negative : Bool} {whole : List Char} {c c' : Cursor}
    {n : Number} (h : integerOfParts negative whole c = .ok (n, c')) :
    n.toFloat.isFinite = true := by
  unfold integerOfParts at h
  simp only at h
  split at h
  next =>
    split at h
    next => exact isFinite_of_floatOfParts h
    next hn =>
      cases h
      have hbits : natOfDigits whole ≤ 2 ^ 63 := Nat.not_lt.1 (not_or.1 hn).2
      exact isFinite_ofInt (by omega) (by omega)
  next =>
    split at h
    next hn =>
      cases h
      have hbits : natOfDigits whole < 2 ^ 64 := hn
      exact isFinite_ofInt (by omega) (by omega)
    next => exact isFinite_of_floatOfParts h

theorem isFinite_of_readExponentDigits {negative minus : Bool} {whole fraction : List Char}
    {c c' : Cursor} {n : Number}
    (h : readExponentDigits negative whole fraction minus c = .ok (n, c')) :
    n.toFloat.isFinite = true := by
  have hzero : (0.0 : Float).isFinite = true := by decide +kernel
  unfold readExponentDigits at h
  split at h
  next => split at h <;> cases h
  next =>
    split at h
    next =>
      split at h
      next =>
        cases h
        exact isFinite_signedFloat negative hzero
      next => cases h
    next => exact isFinite_of_floatOfParts h

theorem isFinite_of_readExponent {negative : Bool} {whole fraction : List Char} {c c' : Cursor}
    {n : Number} (h : readExponent negative whole fraction c = .ok (n, c')) :
    n.toFloat.isFinite = true := by
  obtain ⟨t, p⟩ := c
  cases t with
  | nil => cases h
  | cons x t =>
    by_cases h₁ : x = '+'
    · rw [h₁, readExponent_plus] at h
      exact isFinite_of_readExponentDigits h
    · by_cases h₂ : x = '-'
      · rw [h₂, readExponent_minus] at h
        exact isFinite_of_readExponentDigits h
      · rw [readExponent_of_no_sign h₁ h₂] at h
        exact isFinite_of_readExponentDigits h

theorem isFinite_of_readFraction {negative : Bool} {whole : List Char} {c c' : Cursor}
    {n : Number} (h : readFraction negative whole c = .ok (n, c')) :
    n.toFloat.isFinite = true := by
  unfold readFraction at h
  split at h
  next => split at h <;> cases h
  next =>
    split at h
    next =>
      split at h
      next => exact isFinite_of_readExponent h
      next => exact isFinite_of_floatOfParts h
    next => exact isFinite_of_floatOfParts h

/-- A number that is read is finite. -/
theorem isFinite_of_readNumber {negative : Bool} {c c' : Cursor} {n : Number}
    (h : readNumber negative c = .ok (n, c')) : n.toFloat.isFinite = true := by
  obtain ⟨ds, c₁, hc⟩ : ∃ ds c₁, c.digits = (ds, c₁) := ⟨_, _, rfl⟩
  have hds : IsWhole ds := isWhole_of_readNumber hc h
  rw [readNumber_of_isWhole hds hc] at h
  unfold readBehindDigits at h
  split at h
  next => exact isFinite_of_integerOfParts h
  next =>
    split at h
    next => exact isFinite_of_readFraction h
    next =>
      split at h
      next => exact isFinite_of_readExponent h
      next => exact isFinite_of_integerOfParts h

/-! ### Values -/

/-- A value with finite numbers only. -/
def AllFinite (v : Json) : Prop := ∀ n ∈ v.numbers, n.toFloat.isFinite = true

/-- Members with finite numbers only. -/
def AllFiniteMembers (ms : List (String × Json)) : Prop :=
  ∀ n ∈ numbersOfMembers ms, n.toFloat.isFinite = true

theorem allFiniteMembers_nil : AllFiniteMembers [] := by
  intro n hn
  cases hn

theorem allFiniteMembers_cons {k : String} {v : Json} {ms : List (String × Json)} :
    AllFiniteMembers ((k, v) :: ms) ↔ AllFinite v ∧ AllFiniteMembers ms :=
  List.forall_mem_append

/-- A new member brings its own numbers only. -/
theorem AllFiniteMembers.insertMember {key : String} {v : Json} {ms : List (String × Json)}
    (hv : AllFinite v) (hms : AllFiniteMembers ms) :
    AllFiniteMembers (Json.insertMember key v ms) := by
  induction ms with
  | nil => exact allFiniteMembers_cons.2 ⟨hv, hms⟩
  | cons m ms ih =>
    obtain ⟨k, w⟩ := m
    obtain ⟨hw, hms'⟩ := allFiniteMembers_cons.1 hms
    unfold Json.insertMember
    split
    · exact allFiniteMembers_cons.2 ⟨hv, hms⟩
    · split
      · exact allFiniteMembers_cons.2 ⟨hv, hms'⟩
      · exact allFiniteMembers_cons.2 ⟨hw, ih hms'⟩

/-- The simple values that are no numbers have none in them. -/
theorem allFinite_of_readSimple {fuel : Nat} {c c' : Cursor} {v : Json}
    (h : readSimple fuel c = .ok (v, c')) : AllFinite v := by
  have hnone : ∀ {w : Json}, w.numbers = [] → AllFinite w := by
    intro w hw n hn
    rw [hw] at hn
    cases hn
  have hnumber : ∀ {n : Number}, n.toFloat.isFinite = true → AllFinite (.number n) := by
    intro n hfinite m hm
    obtain rfl : m = n := List.mem_singleton.1 hm
    exact hfinite
  unfold readSimple at h
  split at h
  next => cases h
  next x t hc =>
    split_ifs at h
    · split at h
      next => cases h; exact hnone rfl
      next => cases h
    · split at h
      next => cases h; exact hnone rfl
      next => cases h
    · split at h
      next => cases h; exact hnone rfl
      next => cases h
    · split at h
      next n c₁ hn => cases h; exact hnumber (isFinite_of_readNumber hn)
      next => cases h
    · split at h
      next n c₁ hn => cases h; exact hnumber (isFinite_of_readNumber hn)
      next => cases h
    · split at h
      next => cases h; exact hnone rfl
      next => cases h

/-- Finiteness is kept by every step of the reader. -/
theorem readClosed_allFinite : ReadClosed AllFinite where
  simple := allFinite_of_readSimple
  nil := by
    intro n hn
    cases hn
  cons hv hvs := List.forall_mem_append.2 ⟨hv, hvs⟩
  empty := allFiniteMembers_nil
  insert hv hms := AllFiniteMembers.insertMember hv hms

/-- **Texts hold finite numbers.**

The value of a text holds finite numbers only. -/
theorem allFinite_of_read {text : List Char} {v : Json} (h : read text = .ok v) :
    AllFinite v :=
  readClosed_allFinite.of_read h

end Json
end SceneMarkup
