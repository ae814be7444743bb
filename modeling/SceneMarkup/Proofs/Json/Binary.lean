import Mathlib.Algebra.Ring.Int.Defs
import Mathlib.Algebra.Ring.Nat

/-!
# Numbers of double precision

The numbers of the format are handled unpacked, as a mantissa and an exponent.  A result is rounded
to fifty-three bits and packed.  The exponent decides whether it is packed as an infinite number, so
the lemmas here follow the exponent through rounding, packing, products and quotients.

## Main definitions

* `repacked` — a number that was packed and is unpacked again.
* `IsBelow`, `IsAbove` — numbers whose exponent has a bound.

## Main results

* `exponent_roundWithAccuracy`, `roundWithAccuracy_of_log2` — the exponent of a rounded number.
* `isBelow_repacked`, `isAbove_repacked_finite` — packing keeps the bounds.
* `isFinite_repacked_mul`, `isBelow_repacked_div` — products of small numbers are finite, and
  quotients by great ones are small.
-/

namespace SceneMarkup
namespace Json

open Float.Model Float.Model.UnpackedFloat

/-! ### Rounding -/

/-- The binary format of double precision. -/
abbrev binary64 : Format := Format.binary64

theorem targetExponent_binary64 (t : Int) :
    binary64.targetExponent t = max (t - 53) (-1074) := rfl

theorem mantissa_shiftRight (k : Nat) (em : ExtendedMantissa) :
    (em >>> k).mantissa = em.mantissa / 2 ^ k := by
  induction k with
  | zero => exact (Nat.div_one _).symm
  | succ k ih =>
    show (em >>> k).mantissa / 2 = em.mantissa / 2 ^ (k + 1)
    rw [ih, Nat.div_div_eq_div_mul, Nat.pow_succ]

theorem mantissa_ofMantissaAndAccuracy (m : Nat) (a : Accuracy) :
    (ExtendedMantissa.ofMantissaAndAccuracy m a).mantissa = m := by
  cases a with
  | exact => rfl
  | inexact o => cases o <;> rfl

theorem roundToNearestEven_le (m : Nat) (a : Accuracy) : a.roundToNearestEven m ≤ m + 1 := by
  cases a with
  | exact => exact Nat.le_succ m
  | inexact o =>
    cases o with
    | lt => exact Nat.le_succ m
    | eq =>
      show m + m % 2 ≤ m + 1
      omega
    | gt => exact Nat.le_refl _

/-- How far a mantissa is shifted leaves at most fifty-three of its bits. -/
theorem shift_lt (m : Nat) (e : Int) :
    m / 2 ^ (binary64.targetExponent (totalExponent m e) - e).toNat < 2 ^ 53 := by
  rw [targetExponent_binary64, totalExponent]
  have hlog : m < 2 ^ (m.log2 + 1) := Nat.lt_log2_self
  generalize hk : (max (↑m.log2 + 1 + e - 53) (-1074) - e).toNat = k
  have hle : m.log2 + 1 ≤ 53 + k := by omega
  rw [Nat.div_lt_iff_lt_mul (Nat.two_pow_pos k), ← Nat.pow_add]
  exact Nat.lt_of_lt_of_le hlog (Nat.pow_le_pow_right (by decide) hle)

theorem mantissa_shiftToTargetExponent (m : Nat) (e : Int) (a : Accuracy) :
    (shiftToTargetExponent binary64 m e a).1.mantissa =
      m / 2 ^ (binary64.targetExponent (totalExponent m e) - e).toNat :=
  (mantissa_shiftRight _ _).trans (by rw [mantissa_ofMantissaAndAccuracy])

theorem roundedMantissa_shift_le (m : Nat) (e : Int) (a : Accuracy) :
    (shiftToTargetExponent binary64 m e a).1.roundedMantissa ≤ 2 ^ 53 := by
  have hshift := shift_lt m e
  rw [← mantissa_shiftToTargetExponent m e a] at hshift
  rw [ExtendedMantissa.roundedMantissa]
  exact Nat.le_trans (roundToNearestEven_le _ _) hshift

/-- A mantissa is shifted, rounded, and shifted again lest it overflow. -/
theorem roundWithAccuracy_cases (s : Sign) (m : Nat) (e : Int) (a : Accuracy)
    {p p' : ExtendedMantissa × Int} (hp : shiftToTargetExponent binary64 m e a = p)
    (hp' : shiftToTargetExponent binary64 p.1.roundedMantissa p.2 .exact = p') :
    p'.1.mantissa = 0 ∧ roundWithAccuracy binary64 s m e a = .zero s ∨
      ∃ h, roundWithAccuracy binary64 s m e a = .finite s p'.1.mantissa p'.2 h := by
  subst hp
  subst hp'
  by_cases hz : (shiftToTargetExponent binary64
      (shiftToTargetExponent binary64 m e a).1.roundedMantissa
      (shiftToTargetExponent binary64 m e a).2 .exact).1.mantissa = 0
  · exact Or.inl ⟨hz, dif_pos hz⟩
  · exact Or.inr ⟨Nat.pos_of_ne_zero hz, dif_neg hz⟩

/-- **Rounding raises an exponent by one at most.**

A number below `2 ^ (B + 1)` is rounded to zero or to a number with an exponent of at most
`B + 1`. -/
theorem exponent_roundWithAccuracy {B : Int} (hB : -1074 ≤ B) (s : Sign) (m : Nat) (e : Int)
    (a : Accuracy) (hm : m.log2 + e ≤ B) :
    roundWithAccuracy binary64 s m e a = .zero s ∨
      ∃ m' e' h, roundWithAccuracy binary64 s m e a = .finite s m' e' h ∧ e' ≤ B + 1 := by
  obtain ⟨p, hp⟩ : ∃ p, shiftToTargetExponent binary64 m e a = p := ⟨_, rfl⟩
  have hr : p.1.roundedMantissa ≤ 2 ^ 53 := hp ▸ roundedMantissa_shift_le m e a
  have he : p.2 = e + (binary64.targetExponent (totalExponent m e) - e).toNat := by
    rw [← hp]
    rfl
  have hlog : p.1.roundedMantissa.log2 ≤ 53 := by
    by_cases hz : p.1.roundedMantissa = 0
    · rw [hz]
      decide
    · exact Nat.lt_succ_iff.1 ((Nat.log2_lt hz).2 (Nat.lt_of_le_of_lt hr (by decide)))
  rcases roundWithAccuracy_cases s m e a hp rfl with ⟨-, hzero⟩ | ⟨h, hfinite⟩
  · exact Or.inl hzero
  · refine Or.inr ⟨_, _, h, hfinite, ?_⟩
    show p.2 + (binary64.targetExponent (totalExponent p.1.roundedMantissa p.2) - p.2).toNat ≤
      B + 1
    rw [targetExponent_binary64, totalExponent] at he ⊢
    generalize p.1.roundedMantissa = r at hlog ⊢
    omega

/-! ### Rounding numbers with all their bits -/

theorem le_roundToNearestEven (m : Nat) (a : Accuracy) : m ≤ a.roundToNearestEven m := by
  cases a with
  | exact => exact Nat.le_refl m
  | inexact o =>
    cases o with
    | lt => exact Nat.le_refl m
    | eq => exact Nat.le_add_right m _
    | gt => exact Nat.le_succ m

theorem two_pow_le_shift {m : Nat} (hm : 52 ≤ m.log2) : 2 ^ 52 ≤ m / 2 ^ (m.log2 - 52) := by
  have hne : m ≠ 0 := by
    rintro rfl
    exact absurd hm (by decide)
  rw [Nat.le_div_iff_mul_le (Nat.two_pow_pos _), ← Nat.pow_add, Nat.add_sub_cancel' hm]
  exact Nat.log2_self_le hne

/-- A mantissa with fifty-three bits or more is shifted until it has fifty-three. -/
theorem shiftToTargetExponent_of_log2 {m : Nat} {e : Int} (a : Accuracy) (hm : 52 ≤ m.log2)
    (he : -1074 ≤ e) :
    2 ^ 52 ≤ (shiftToTargetExponent binary64 m e a).1.mantissa ∧
      (shiftToTargetExponent binary64 m e a).2 = e + (m.log2 - 52) := by
  have hk : (binary64.targetExponent (totalExponent m e) - e).toNat = m.log2 - 52 := by
    rw [targetExponent_binary64, totalExponent]
    omega
  constructor
  · rw [mantissa_shiftToTargetExponent, hk]
    exact two_pow_le_shift hm
  · show e + ((binary64.targetExponent (totalExponent m e) - e).toNat : Int) = e + (m.log2 - 52)
    omega

/-- **Rounding keeps fifty-three bits.**

A number with fifty-three bits or more is rounded to one with fifty-three, and its exponent is
raised by as much as it is shifted, or by one more. -/
theorem roundWithAccuracy_of_log2 (s : Sign) {m : Nat} {e : Int} (a : Accuracy)
    (hm : 52 ≤ m.log2) (he : -1074 ≤ e) :
    ∃ m' e' h, roundWithAccuracy binary64 s m e a = .finite s m' e' h ∧
      2 ^ 52 ≤ m' ∧ m' < 2 ^ 53 ∧ m.log2 + e - 52 ≤ e' ∧ e' ≤ m.log2 + e - 51 := by
  obtain ⟨p, hp⟩ : ∃ p, shiftToTargetExponent binary64 m e a = p := ⟨_, rfl⟩
  obtain ⟨hbits, hexp⟩ := shiftToTargetExponent_of_log2 a hm he
  rw [hp] at hbits hexp
  have hlow : 2 ^ 52 ≤ p.1.roundedMantissa := Nat.le_trans hbits (le_roundToNearestEven _ _)
  have hhigh : p.1.roundedMantissa ≤ 2 ^ 53 := hp ▸ roundedMantissa_shift_le m e a
  have hne : p.1.roundedMantissa ≠ 0 := by omega
  have hlog : 52 ≤ p.1.roundedMantissa.log2 := (Nat.le_log2 hne).2 hlow
  have hlog' : p.1.roundedMantissa.log2 < 54 := (Nat.log2_lt hne).2 (by omega)
  -- only a mantissa that was rounded up to the next power of two is shifted once more
  obtain ⟨p', hp'⟩ : ∃ p', shiftToTargetExponent binary64 p.1.roundedMantissa p.2 .exact = p' :=
    ⟨_, rfl⟩
  obtain ⟨hbits', hexp'⟩ := shiftToTargetExponent_of_log2 (e := p.2) .exact hlog (by omega)
  have hlt : p'.1.mantissa < 2 ^ 53 := by
    rw [← hp', mantissa_shiftToTargetExponent]
    exact shift_lt _ _
  rw [hp'] at hbits' hexp'
  rcases roundWithAccuracy_cases s m e a hp hp' with ⟨hzero, -⟩ | ⟨h, hfinite⟩
  · omega
  · exact ⟨_, _, h, hfinite, hbits', hlt, by omega, by omega⟩

/-! ### Packing -/

/-- A number that was packed and is unpacked again. -/
abbrev repacked (u : UnpackedFloat) : UnpackedFloat :=
  UnpackedFloat.unpack binary64 (UnpackedFloat.pack binary64 u)

theorem biased_binary64 (e : Int) :
    (e + binary64.exponentBias + binary64.mantissaBitsWithoutImplicit).toNat =
      (e + 1075).toNat := by
  show (e + (1023 : Nat) + (52 : Nat)).toNat = (e + 1075).toNat
  omega

/-- A number whose exponent is neither the least nor the greatest has fifty-three bits. -/
theorem unpack_of_unpackExponent {b : BitVec binary64.numBits} (hzero : unpackExponent b ≠ 0#11)
    (hinf : unpackExponent b ≠ -1#11) :
    ∃ s m h, UnpackedFloat.unpack binary64 b =
        .finite s m (((unpackExponent b).toNat : Int) - 1075) h ∧ 2 ^ 52 ≤ m ∧ m < 2 ^ 53 := by
  refine ⟨_, _, _, (if_neg hinf).trans (if_neg hzero), ?_, BitVec.isLt _⟩
  rw [BitVec.toNat_append]
  exact Nat.left_le_or

/-- The infinite numbers and those that are none have the greatest exponent; the others are zero or
finite, with fifty-three bits and the exponent that they were packed with. -/
theorem unpack_cases (b : BitVec binary64.numBits) :
    (unpackExponent b = -1#11 ∧
      ∀ s m e h, UnpackedFloat.unpack binary64 b ≠ .finite s m e h) ∨
    (unpackExponent b ≠ -1#11 ∧ ((∃ s, UnpackedFloat.unpack binary64 b = .zero s) ∨
      ∃ s m e h, UnpackedFloat.unpack binary64 b = .finite s m e h ∧ m < 2 ^ 53 ∧
        e = max (((unpackExponent b).toNat : Int) - 1075) (-1074))) := by
  by_cases hinf : unpackExponent b = -1#11
  · left
    refine ⟨hinf, ?_⟩
    intro s m e h heq
    have hb : UnpackedFloat.unpack binary64 b = if unpackMantissa b = 0#52 then
        .infinity (Sign.ofBitVec (unpackSign b)) else .notANumber := if_pos hinf
    rw [hb] at heq
    by_cases hm : unpackMantissa b = 0#52
    · rw [if_pos hm] at heq
      cases heq
    · rw [if_neg hm] at heq
      cases heq
  · right
    refine ⟨hinf, ?_⟩
    by_cases hzero : unpackExponent b = 0#11
    · by_cases hm : unpackMantissa b = 0#52
      · exact Or.inl ⟨_, (if_neg hinf).trans ((if_pos hzero).trans (dif_pos hm))⟩
      · right
        refine ⟨_, _, _, _, (if_neg hinf).trans ((if_pos hzero).trans (dif_neg hm)), ?_, ?_⟩
        · exact Nat.lt_trans (BitVec.isLt _) (by decide)
        · rw [hzero]
          decide
    · right
      obtain ⟨s, m, h, hb, -, hm⟩ := unpack_of_unpackExponent hzero hinf
      have hpos : (unpackExponent b).toNat ≠ 0 := by
        intro hz
        exact hzero (BitVec.eq_of_toNat_eq hz)
      exact ⟨s, m, _, h, hb, hm, by omega⟩

theorem isFinite_unpack {b : BitVec binary64.numBits} (hb : unpackExponent b ≠ -1#11) :
    (UnpackedFloat.unpack binary64 b).isFinite = true := by
  rcases unpack_cases b with ⟨h, -⟩ | ⟨-, ⟨s, h⟩ | ⟨s, m, e, hm, h, -⟩⟩
  · exact absurd h hb
  · rw [h]
    rfl
  · rw [h]
    rfl

/-- A number whose exponent is small enough is packed with that exponent if it has fifty-three bits,
and with the least exponent otherwise. -/
theorem unpackExponent_pack_finite (s : Sign) {m : Nat} {e : Int} (h : 0 < m) (he : e ≤ 971) :
    (unpackExponent (UnpackedFloat.pack binary64 (.finite s m e h))).toNat =
      if m.log2 + 1 = binary64.mantissaBits then (e + 1075).toNat else 0 := by
  have hlt : (e + 1075).toNat + 1 < 2 ^ 11 := by omega
  unfold UnpackedFloat.pack
  dsimp only
  rw [biased_binary64 e, if_neg (Nat.not_le.2 hlt)]
  by_cases hbits : m.log2 + 1 = binary64.mantissaBits
  · rw [if_pos hbits, if_pos hbits, unpackExponent_packComponents]
    exact Nat.mod_eq_of_lt (Nat.lt_of_succ_lt hlt)
  · rw [if_neg hbits, if_neg hbits, unpackExponent_packComponents]
    rfl

/-- A number whose exponent is small enough stays finite when it is packed. -/
theorem isFinite_repacked_finite (s : Sign) {m : Nat} {e : Int} (h : 0 < m) (he : e ≤ 971) :
    (repacked (.finite s m e h)).isFinite = true := by
  have hexp := unpackExponent_pack_finite s h he
  refine isFinite_unpack ?_
  intro heq
  rw [heq] at hexp
  have hnat : 2 ^ 11 - 1 = if m.log2 + 1 = binary64.mantissaBits then (e + 1075).toNat else 0 :=
    hexp
  split at hnat <;> omega

theorem isFinite_repacked_zero (s : Sign) : (repacked (.zero s)).isFinite = true := by
  cases s <;> rfl

theorem eq_of_unpack_finite {b : BitVec binary64.numBits} {s : Sign} {m : Nat} {e : Int}
    {h : 0 < m} (hb : UnpackedFloat.unpack binary64 b = .finite s m e h) :
    m < 2 ^ 53 ∧ unpackExponent b ≠ -1#11 ∧
      e = max (((unpackExponent b).toNat : Int) - 1075) (-1074) := by
  rcases unpack_cases b with ⟨-, hnot⟩ | ⟨hinf, ⟨s', hz⟩ | ⟨s', m', e', hm, hf, hbits, he⟩⟩
  · exact absurd hb (hnot s m e h)
  · rw [hz] at hb
    cases hb
  · rw [hf] at hb
    cases hb
    exact ⟨hbits, hinf, he⟩

/-- The exponents of finite numbers that are unpacked are small enough. -/
theorem exponent_unpack {b : BitVec binary64.numBits} {s : Sign} {m : Nat} {e : Int} {h : 0 < m}
    (hb : UnpackedFloat.unpack binary64 b = .finite s m e h) : e ≤ 971 := by
  obtain ⟨-, hinf, he⟩ := eq_of_unpack_finite hb
  have hlt : (unpackExponent b).toNat < 2 ^ 11 := (unpackExponent b).isLt
  have hne : (unpackExponent b).toNat ≠ 2047 := fun hn => hinf (BitVec.eq_of_toNat_eq hn)
  omega

/-- Only what is no number is packed as no number. -/
theorem isNaN_repacked {u : UnpackedFloat} (hu : u.isNaN = false) :
    (repacked u).isNaN = false := by
  cases u with
  | notANumber => cases hu
  | zero s => cases s <;> rfl
  | infinity s => cases s <;> rfl
  | finite s m e h =>
    by_cases he : e ≤ 971
    · have hfinite := isFinite_repacked_finite s h he
      cases hv : repacked (.finite s m e h) with
      | notANumber =>
        rw [hv] at hfinite
        cases hfinite
      | _ => rfl
    · have hpack : UnpackedFloat.pack binary64 (.finite s m e h) = packedInfinity binary64 s := by
        unfold UnpackedFloat.pack
        dsimp only
        rw [biased_binary64 e, if_pos (by show 2 ^ 11 ≤ (e + 1075).toNat + 1; omega)]
      rw [repacked, hpack]
      cases s <;> rfl

/-- Packing does not raise an exponent above that of the least numbers. -/
theorem repacked_finite {s s' : Sign} {m m' : Nat} {e e' : Int} {h : 0 < m} {h' : 0 < m'}
    (he : e ≤ 971) (hu : repacked (.finite s m e h) = .finite s' m' e' h') :
    m' < 2 ^ 53 ∧ e' ≤ max e (-1074) := by
  obtain ⟨hm, -, he'⟩ := eq_of_unpack_finite hu
  rw [unpackExponent_pack_finite s h he] at he'
  refine ⟨hm, ?_⟩
  split at he' <;> omega

/-! ### Bounded exponents -/

theorem isFinite_of_not {u : UnpackedFloat} (hn : u.isNaN = false) (hi : u.isInf = false) :
    u.isFinite = true := by
  cases u with
  | notANumber => cases hn
  | infinity s => cases hi
  | zero s => rfl
  | finite s m e h => rfl

/-- A number that is zero, or finite with at most fifty-three bits and an exponent of at most
`B`. -/
def IsBelow (B : Int) (u : UnpackedFloat) : Prop :=
  (∃ s, u = .zero s) ∨ ∃ s m e h, u = .finite s m e h ∧ m < 2 ^ 53 ∧ e ≤ B

theorem IsBelow.isFinite {B : Int} {u : UnpackedFloat} (hu : IsBelow B u) :
    u.isFinite = true := by
  rcases hu with ⟨s, rfl⟩ | ⟨s, m, e, h, rfl, -⟩
  · rfl
  · rfl

theorem IsBelow.isNaN {B : Int} {u : UnpackedFloat} (hu : IsBelow B u) : u.isNaN = false := by
  rcases hu with ⟨s, rfl⟩ | ⟨s, m, e, h, rfl, -⟩
  · rfl
  · rfl

/-- Packing keeps a bound on the exponent. -/
theorem isBelow_repacked {B : Int} (hB : -1074 ≤ B) (hB' : B ≤ 971) {u : UnpackedFloat}
    (hu : (∃ s, u = .zero s) ∨ ∃ s m e h, u = .finite s m e h ∧ e ≤ B) :
    IsBelow B (repacked u) := by
  rcases hu with ⟨s, rfl⟩ | ⟨s, m, e, hm, rfl, he⟩
  · exact Or.inl ⟨s, by cases s <;> rfl⟩
  · have he' : e ≤ 971 := by omega
    have hfinite := isFinite_repacked_finite s hm he'
    cases hv : repacked (.finite s m e hm) with
    | notANumber =>
      rw [hv] at hfinite
      cases hfinite
    | infinity s' =>
      rw [hv] at hfinite
      cases hfinite
    | zero s' => exact Or.inl ⟨s', rfl⟩
    | finite s' m' e' h' =>
      obtain ⟨hm', hle⟩ := repacked_finite he' hv
      exact Or.inr ⟨s', m', e', h', rfl, hm', by omega⟩

theorem isBelow_repacked_round {B : Int} (hB : -1074 ≤ B) (hB' : B ≤ 970) (s : Sign) (m : Nat)
    (e : Int) (a : Accuracy) (hm : m.log2 + e ≤ B) :
    IsBelow (B + 1) (repacked (roundWithAccuracy binary64 s m e a)) := by
  refine isBelow_repacked (by omega) (by omega) ?_
  rcases exponent_roundWithAccuracy hB s m e a hm with hz | ⟨m', e', h', hf, he'⟩
  · exact Or.inl ⟨s, hz⟩
  · exact Or.inr ⟨s, m', e', h', hf, he'⟩

/-- A finite number with all its fifty-three bits and an exponent of at least `E`. -/
def IsAbove (E : Int) (u : UnpackedFloat) : Prop :=
  ∃ s m e h, u = .finite s m e h ∧ 2 ^ 52 ≤ m ∧ E ≤ e

theorem isAbove_finite {E : Int} {s : Sign} {m : Nat} {e : Int} {h : 0 < m} :
    IsAbove E (.finite s m e h) ↔ 2 ^ 52 ≤ m ∧ E ≤ e := by
  constructor
  · rintro ⟨s', m', e', h', heq, hu⟩
    cases heq
    exact hu
  · intro hu
    exact ⟨s, m, e, h, rfl, hu⟩

instance (E : Int) : (u : UnpackedFloat) → Decidable (IsAbove E u)
  | .finite _ m e _ => decidable_of_iff (2 ^ 52 ≤ m ∧ E ≤ e) isAbove_finite.symm
  | .zero _ => .isFalse (by rintro ⟨_, _, _, _, ⟨⟩, _⟩)
  | .infinity _ => .isFalse (by rintro ⟨_, _, _, _, ⟨⟩, _⟩)
  | .notANumber => .isFalse (by rintro ⟨_, _, _, _, ⟨⟩, _⟩)

/-- Packing keeps the exponent of a number with fifty-three bits. -/
theorem isAbove_repacked_finite {E : Int} (s : Sign) {m : Nat} {e : Int} (h : 0 < m)
    (hm : 2 ^ 52 ≤ m) (hm' : m < 2 ^ 53) (hE : -1074 ≤ E) (he : E ≤ e) (he' : e ≤ 971) :
    IsAbove E (repacked (.finite s m e h)) := by
  have hlow : 52 ≤ m.log2 := (Nat.le_log2 (Nat.ne_of_gt h)).2 hm
  have hhigh : m.log2 < 53 := (Nat.log2_lt (Nat.ne_of_gt h)).2 hm'
  have hexp := unpackExponent_pack_finite s h he'
  rw [if_pos (by show m.log2 + 1 = 53; omega)] at hexp
  have hne : ∀ k : Nat, k < 2 ^ 11 → (e + 1075).toNat ≠ k →
      unpackExponent (UnpackedFloat.pack binary64 (.finite s m e h)) ≠ BitVec.ofNat 11 k := by
    intro k hk hne heq
    rw [heq] at hexp
    exact hne (hexp.symm.trans (Nat.mod_eq_of_lt hk))
  obtain ⟨s', m', h', hu, hbits, -⟩ :=
    unpack_of_unpackExponent (hne 0 (by decide) (by omega)) (hne 2047 (by decide) (by omega))
  show IsAbove E (UnpackedFloat.unpack binary64 _)
  rw [hu]
  exact isAbove_finite.2 ⟨hbits, by rw [hexp]; omega⟩

/-! ### Products and quotients -/

theorem log2_mul_le (m n : Nat) : (m * n).log2 ≤ m.log2 + n.log2 + 1 := by
  by_cases hz : m * n = 0
  · rw [hz]
    exact Nat.zero_le _
  · have hlt : m * n < 2 ^ (m.log2 + n.log2 + 2) := by
      have hm : m < 2 ^ (m.log2 + 1) := Nat.lt_log2_self
      have hn : n < 2 ^ (n.log2 + 1) := Nat.lt_log2_self
      have hpow : 2 ^ (m.log2 + n.log2 + 2) = 2 ^ (m.log2 + 1) * 2 ^ (n.log2 + 1) := by
        rw [← Nat.pow_add]
        congr 1
        omega
      rw [hpow]
      exact Nat.mul_lt_mul'' hm hn
    have hlog := (Nat.log2_lt hz).2 hlt
    omega

theorem log2_lt_of_lt {n k : Nat} (hk : 0 < k) (hn : n < 2 ^ k) : n.log2 < k := by
  by_cases hz : n = 0
  · rw [hz]
    exact hk
  · exact (Nat.log2_lt hz).2 hn

theorem isNaN_roundWithAccuracy (s : Sign) (m : Nat) (e : Int) (a : Accuracy) :
    (roundWithAccuracy binary64 s m e a).isNaN = false := by
  rcases roundWithAccuracy_cases s m e a rfl rfl with ⟨-, h⟩ | ⟨h', h⟩
  · rw [h]
    rfl
  · rw [h]
    rfl

/-- A product with a finite number is a number. -/
theorem isNaN_mul {u : UnpackedFloat} (hu : u.isNaN = false) (s : Sign) {m : Nat} (e : Int)
    (h : 0 < m) : (UnpackedFloat.mul binary64 u (.finite s m e h)).isNaN = false := by
  cases u with
  | notANumber => cases hu
  | zero s' => rfl
  | infinity s' => rfl
  | finite s' m' e' h' => exact isNaN_roundWithAccuracy _ _ _ _

/-- A product that is small enough is finite. -/
theorem isFinite_repacked_mul {A : Int} {u : UnpackedFloat} (hu : IsBelow A u) (s : Sign) {m : Nat}
    {e : Int} (h : 0 < m) (hm : m < 2 ^ 53) (he : A + e ≤ 865) :
    (repacked (UnpackedFloat.mul binary64 u (.finite s m e h))).isFinite = true := by
  rcases hu with ⟨s', rfl⟩ | ⟨s', m', e', h', rfl, hm', he'⟩
  · exact isFinite_repacked_zero _
  · have hlog := log2_lt_of_lt (by decide) hm
    have hlog' := log2_lt_of_lt (by decide) hm'
    have hmul := log2_mul_le m' m
    exact (isBelow_repacked_round (B := 970) (by decide) (by decide) (s' * s) (m' * m) (e' + e)
      .exact (by omega)).isFinite

theorem log2_shiftLeft_le (n k : Nat) : (n <<< k).log2 ≤ n.log2 + k + 1 := by
  have hle := log2_mul_le n (2 ^ k)
  rw [Nat.log2_two_pow] at hle
  rw [Nat.shiftLeft_eq]
  exact hle

theorem log2_div_add_le {m n : Nat} (h : m / n ≠ 0) : (m / n).log2 + n.log2 ≤ m.log2 := by
  have hn : n ≠ 0 := by
    rintro rfl
    exact h (Nat.div_zero m)
  have hm : m ≠ 0 := by
    rintro rfl
    exact h (Nat.zero_div n)
  refine (Nat.le_log2 hm).2 ?_
  calc 2 ^ ((m / n).log2 + n.log2)
      = 2 ^ (m / n).log2 * 2 ^ n.log2 := Nat.pow_add _ _ _
    _ ≤ m / n * n := Nat.mul_le_mul (Nat.log2_self_le h) (Nat.log2_self_le hn)
    _ ≤ m := Nat.div_mul_le_self m n

/-- The quotient of two mantissas before it is rounded.  Its exponent is lowered by as much as the
first mantissa is shifted. -/
theorem log2_divCore_le {B : Int} {m n : Nat} {e f : Int} (hlog : m.log2 ≤ n.log2)
    (he : e - f < B) :
    ((divCore binary64 m e n f).1.log2 : Int) + (divCore binary64 m e n f).2.1 ≤ B := by
  unfold divCore
  dsimp only
  generalize binary64.targetExponent (totalExponent m e - totalExponent n f) = t
  generalize hk : (e - f - min (e - f) t).toNat = k
  have ht : min (e - f) t = e - f - k := by omega
  rw [ht]
  by_cases hz : m <<< k / n = 0
  · have hzero : Nat.log2 0 = 0 := by decide
    rw [hz, hzero]
    omega
  · have hdiv := log2_div_add_le hz
    have hshift := log2_shiftLeft_le m k
    omega

/-- **Quotients by great numbers are small.**

The exponent of a quotient is about the difference of the two exponents. -/
theorem isBelow_repacked_div {A B E : Int} (hB : -1074 ≤ B) (hB' : B ≤ 970)
    {u v : UnpackedFloat} (hu : IsBelow A u) (hv : IsAbove E v) (he : A - E < B) :
    IsBelow (B + 1) (repacked (UnpackedFloat.div binary64 u v)) := by
  obtain ⟨s, m, e, h, rfl, hm, hE⟩ := hv
  rcases hu with ⟨s', rfl⟩ | ⟨s', m', e', h', rfl, hm', hA⟩
  · exact isBelow_repacked (by omega) (by omega) (Or.inl ⟨s' / s, rfl⟩)
  · have hlow : 52 ≤ m.log2 := (Nat.le_log2 (Nat.ne_of_gt h)).2 hm
    have hhigh : m'.log2 < 53 := (Nat.log2_lt (Nat.ne_of_gt h')).2 hm'
    exact isBelow_repacked_round hB hB' (s' / s) _ _ _
      (log2_divCore_le (by omega) (by omega))

end Json
end SceneMarkup
