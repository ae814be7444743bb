import Mathlib.Tactic.SplitIfs
import SceneMarkup.Json.Reader
import SceneMarkup.Proofs.Json.Binary

/-!
# Integers and decimals are finite

An integer of sixty-four bits is far from the greatest number of the format, and it is no nearer to
it when it is divided by a power of ten.  A product with a power of ten that is infinite is rejected
when it is read.  So the numbers of a JSON text are finite.

## Main results

* `isFinite_ofInt` — integers.
* `isAbove_powerOfTen` — powers of ten are not too small to be divided by.
* `isFinite_of_decimalFloat?` — decimals that are read.
-/

namespace SceneMarkup
namespace Json

open Float.Model Float.Model.UnpackedFloat

/-! ### Signs -/

theorem isFinite_neg {x : Float} (hx : x.isFinite = true) : (-x).isFinite = true := by
  show (repacked x.toModel.unpack.neg).isFinite = true
  have hu : x.toModel.unpack.isFinite = true := hx
  cases hv : x.toModel.unpack with
  | notANumber =>
    rw [hv] at hu
    cases hu
  | infinity s =>
    rw [hv] at hu
    cases hu
  | zero s => exact isFinite_repacked_zero (-s)
  | finite s m e h => exact isFinite_repacked_finite (-s) h (exponent_unpack hv)

theorem isFinite_signedFloat (negative : Bool) {x : Float} (hx : x.isFinite = true) :
    (signedFloat negative x).isFinite = true := by
  cases negative with
  | true => exact isFinite_neg hx
  | false => exact hx

/-! ### Integers -/

/-- A natural number of sixty-four bits has a small exponent. -/
theorem isBelow_repacked_ofNat {n : Nat} (hn : n < 2 ^ 64) :
    IsBelow 65 (repacked (UnpackedFloat.ofNat binary64 n)) := by
  show IsBelow 65 (repacked (UnpackedFloat.normalize binary64 n 0 .positive))
  unfold UnpackedFloat.normalize
  cases hcmp : compare (n : Int) 0 with
  | lt =>
    have hlt := Int.compare_eq_lt.1 hcmp
    omega
  | eq => exact isBelow_repacked (by decide) (by decide) (Or.inl ⟨.positive, rfl⟩)
  | gt =>
    dsimp only
    rw [Int.toNat_natCast]
    unfold UnpackedFloat.round UnpackedFloat.decreaseExponent
    dsimp only
    generalize (0 - binary64.targetExponent (totalExponent n 0)).toNat = k
    have hlog := log2_shiftLeft_le n k
    have hn' := log2_lt_of_lt (by decide) hn
    exact isBelow_repacked_round (B := 64) (by decide) (by decide) .positive (n <<< k) (0 - k)
      .exact (by omega)

theorem unpack_one :
    Float.exactlyRepresentablePowersOfTen[0].toModel.unpack =
      .finite .positive (2 ^ 52) (-52) (by decide) := by
  rfl

/-- A natural number of sixty-four bits is finite where it is read digit by digit. -/
theorem isFinite_repacked_ofScientific {n : Nat} (hn : n < 2 ^ 64) :
    (repacked (UnpackedFloat.ofScientific binary64 n 0)).isFinite = true := by
  have hlog := log2_lt_of_lt (by decide) hn
  unfold UnpackedFloat.ofScientific
  by_cases hz : n = 0
  · rw [dif_pos hz]
    exact isFinite_repacked_zero _
  · rw [dif_neg hz]
    have hfar : ¬ (0 : Int) < -((2 ^ binary64.exponentBits : Int) + n.log2) := by
      show ¬ (0 : Int) < -((2 ^ 11 : Int) + n.log2)
      omega
    rw [if_neg (by decide), if_neg hfar, if_pos (by decide)]
    have hshift := log2_shiftLeft_le n 53
    have hmul := log2_mul_le (n <<< 53) 1
    have hone : Nat.log2 1 = 0 := by decide
    rw [hone] at hmul
    have hbound : ((n <<< 53 * 1).log2 : Int) + (-53 + 0) ≤ 970 := by
      generalize (n <<< 53 * 1).log2 = a at hmul ⊢
      generalize (n <<< 53).log2 = b at hmul hshift
      omega
    exact (isBelow_repacked_round (B := 970) (by decide) (by decide) .positive (n <<< 53 * 1)
      (-53 + 0) .exact hbound).isFinite

theorem isFinite_ofNat {n : Nat} (hn : n < 2 ^ 64) : (Float.ofNat n).isFinite = true := by
  show (Float.ofScientific n false 0).isFinite = true
  unfold Float.ofScientific
  split
  next h =>
    -- a number of so few bits is converted at once and multiplied by one
    show (repacked (UnpackedFloat.mul binary64 (repacked (UnpackedFloat.ofNat binary64
      n.toUInt64.toNat)) Float.exactlyRepresentablePowersOfTen[0].toModel.unpack)).isFinite = true
    rw [unpack_one]
    exact isFinite_repacked_mul (isBelow_repacked_ofNat n.toUInt64.toNat_lt) .positive (by decide)
      (by decide) (by decide)
  next h => exact isFinite_repacked_ofScientific hn

/-- **Integers are finite.**

An integer of sixty-four bits, signed or not, is a finite number. -/
theorem isFinite_ofInt {i : Int} (hlow : -2 ^ 63 ≤ i) (hhigh : i < 2 ^ 64) :
    (Float.ofInt i).isFinite = true := by
  cases i with
  | ofNat n =>
    have hn : (n : Int) < 2 ^ 64 := hhigh
    exact isFinite_ofNat (by omega)
  | negSucc n => exact isFinite_neg (isFinite_ofNat (by omega))

/-! ### Decimals -/

/-- The powers of ten up to `10 ^ 307` are at least one, and they are not too large to be packed. -/
theorem isAbove_scientific {k : Nat} (hk : k ≤ 307) :
    IsAbove (-52) (repacked (UnpackedFloat.ofScientific binary64 1 k)) := by
  have hpow : 10 ^ k < 2 ^ 1023 :=
    Nat.lt_of_le_of_lt (Nat.pow_le_pow_right (by decide) hk) (by decide +kernel)
  have hone : 1 ≤ 10 ^ k := Nat.one_le_pow k 10 (by decide)
  unfold UnpackedFloat.ofScientific
  rw [dif_neg Nat.one_ne_zero, if_neg (by show ¬ (k : Int) > 2 ^ 11; omega),
    if_neg (by show ¬ (k : Int) < -(2 ^ 11 + (Nat.log2 1 : Int)); omega),
    if_pos (Int.natCast_nonneg k)]
  show IsAbove (-52) (repacked (roundWithAccuracy binary64 .positive (1 <<< 53 * 10 ^ k) (-53 + 0)
    .exact))
  have hne : 1 <<< 53 * 10 ^ k ≠ 0 := by
    omega
  have hlow : 53 ≤ (1 <<< 53 * 10 ^ k).log2 := (Nat.le_log2 hne).2 (by omega)
  have hhigh : (1 <<< 53 * 10 ^ k).log2 < 1076 := (Nat.log2_lt hne).2 (by omega)
  obtain ⟨m, e, h, hround, hm, hm', he, he'⟩ := roundWithAccuracy_of_log2 .positive .exact
    (e := -53 + 0) (Nat.le_of_succ_le hlow) (by decide)
  rw [hround]
  exact isAbove_repacked_finite .positive h hm hm' (by decide) (by omega) (by omega)

theorem isAbove_greatestPower : IsAbove 2 (powerOfTen 308).toModel.unpack := by
  decide +kernel

/-- A power of ten is at least one. -/
theorem isAbove_powerOfTen {k : Nat} (hk : k ≤ 308) :
    IsAbove (-52) (powerOfTen k).toModel.unpack := by
  have hexact : ∀ k < 23, IsAbove (-52) (powerOfTen k).toModel.unpack := by decide +kernel
  by_cases hsmall : k < 23
  · exact hexact k hsmall
  · by_cases hgreat : k = 308
    · obtain ⟨s, m, e, h, hu, hm, he⟩ := isAbove_greatestPower
      rw [hgreat]
      exact ⟨s, m, e, h, hu, hm, by omega⟩
    · have hnot : ¬ (1 < 2 ^ 53 ∧ k ≤ 22) := by omega
      unfold powerOfTen Float.ofScientific
      rw [dif_neg hnot]
      exact isAbove_scientific (by omega)

/-- A number of sixty-four bits that is divided by the greatest power of ten does not grow. -/
theorem isBelow_divideByGreatest (times : Nat) {x : Float} (hx : IsBelow 65 x.toModel.unpack) :
    IsBelow 65 (divideByGreatest times x).toModel.unpack := by
  induction times generalizing x with
  | zero => exact hx
  | succ times ih =>
    unfold divideByGreatest
    split
    · exact hx
    · refine ih ?_
      show IsBelow 65 (repacked (UnpackedFloat.div binary64 x.toModel.unpack
        (powerOfTen 308).toModel.unpack))
      exact isBelow_repacked_div (B := 64) (by decide) (by decide) hx isAbove_greatestPower
        (by decide)

theorem isFinite_div_powerOfTen {x : Float} (hx : IsBelow 65 x.toModel.unpack) {k : Nat}
    (hk : k ≤ 308) : (x / powerOfTen k).isFinite = true := by
  show (repacked (UnpackedFloat.div binary64 x.toModel.unpack
    (powerOfTen k).toModel.unpack)).isFinite = true
  exact (isBelow_repacked_div (B := 118) (by decide) (by decide) hx (isAbove_powerOfTen hk)
    (by decide)).isFinite

theorem isNaN_mul_powerOfTen {x : Float} (hx : IsBelow 65 x.toModel.unpack) {k : Nat}
    (hk : k ≤ 308) : (x * powerOfTen k).isNaN = false := by
  obtain ⟨s, m, e, h, hp, -, -⟩ := isAbove_powerOfTen hk
  show (repacked (UnpackedFloat.mul binary64 x.toModel.unpack
    (powerOfTen k).toModel.unpack)).isNaN = false
  rw [hp]
  exact isNaN_repacked (isNaN_mul hx.isNaN s e h)

/-- **Decimals are finite.**

A decimal that is read as a number is read as a finite one. -/
theorem isFinite_of_decimalFloat? {negative : Bool} {n : Nat} {e : Int} {x : Float}
    (h : decimalFloat? negative n e = some x) : x.isFinite = true := by
  have hn : IsBelow 65 n.toUInt64.toFloat.toModel.unpack :=
    isBelow_repacked_ofNat n.toUInt64.toNat_lt
  unfold decimalFloat? at h
  simp only at h
  split_ifs at h with hneg hgreat hzero hinf
  · cases h
    exact isFinite_signedFloat negative
      (isFinite_div_powerOfTen (isBelow_divideByGreatest _ hn) (by omega))
  · cases h
    exact isFinite_signedFloat negative hn.isFinite
  · cases h
    have hnan := isNaN_mul_powerOfTen hn (k := e.toNat) (by omega)
    exact isFinite_signedFloat negative (isFinite_of_not hnan (Bool.eq_false_iff.2 hinf))

/-- A decimal near the greatest number is refused because the product is infinite, although the
number nearest to it is finite. -/
example : decimalFloat? false 17976931348623158 292 = none ∧
    (Float.ofScientific 17976931348623158 false 292).isFinite = true := by
  decide +kernel

end Json
end SceneMarkup
