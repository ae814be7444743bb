/-!
# The shortest decimal of a binary number

A positive number `m * 2 ^ q` of a binary format stands for all reals that are rounded to it.  Its
shortest decimal is the one with the fewest digits among those reals, and of several the one nearest
to the number; of two at the same distance the one with the even last digit.

## Main definitions

* `Decimal` — decimal numbers.
* `Span`, `spanOf` — the reals that are rounded to a number.
* `leading` — the exponent of the first digit.
* `onGrid?` — the best decimal with a given number of digits.
* `shortest` — the shortest decimal.
-/

namespace SceneMarkup

/-- A decimal number: a coefficient times a power of ten. -/
structure Decimal where
  /-- The coefficient. -/
  coefficient : Nat
  /-- The power of ten. -/
  exponent : Int
  deriving Repr, DecidableEq

namespace Decimal

/-- The reals that are rounded to a number, with a common denominator. -/
structure Span where
  /-- The numerator of the least of them. -/
  low : Nat
  /-- The numerator of the number itself. -/
  value : Nat
  /-- The numerator of the greatest of them. -/
  high : Nat
  /-- The denominator. -/
  den : Nat
  /-- Whether the two ends belong to the span. -/
  closed : Bool
  deriving Repr

/-- The span of the number `m * 2 ^ q`.  It is `narrow` when the next smaller number of the format
is only half as far away as the next greater one. -/
def spanOf (m : Nat) (q : Int) (narrow : Bool) : Span :=
  let scale := Nat.pow 2 (q - 2).toNat
  { low := (if narrow then 4 * m - 1 else 4 * m - 2) * scale
    value := 4 * m * scale
    high := (4 * m + 2) * scale
    den := Nat.pow 2 (2 - q).toNat
    closed := m % 2 == 0 }

/-- How many decimal digits a natural number has. -/
def digitCount (n : Nat) : Nat := (Nat.toDigits 10 n).length

/-- The exponent of the first digit of the quotient `num / den`. -/
def leading (num den : Nat) : Int :=
  let k : Int := (digitCount num : Int) - digitCount den
  if den * Nat.pow 10 k.toNat ≤ num * Nat.pow 10 (-k).toNat then k else k - 1

/-- Whether the decimal `d * 10 ^ e` lies in a span. -/
def Span.holds (s : Span) (d : Nat) (e : Int) : Bool :=
  let x := d * Nat.pow 10 e.toNat * s.den
  let u := Nat.pow 10 (-e).toNat
  if s.closed then s.low * u ≤ x && x ≤ s.high * u else s.low * u < x && x < s.high * u

/-- The decimal of the grid of multiples of `10 ^ e` that lies in a span and is nearest to its
number, if there is one. -/
def onGrid? (s : Span) (e : Int) : Option Decimal :=
  let num := s.value * Nat.pow 10 (-e).toNat
  let den := s.den * Nat.pow 10 e.toNat
  let d := num / den
  let r := num % den
  let below := s.holds d e
  let above := s.holds (d + 1) e
  -- both neighbours of the number on the grid read back as the number: the nearer one goes
  if below && above then
    if 2 * r < den || (2 * r == den && d % 2 == 0) then some ⟨d, e⟩ else some ⟨d + 1, e⟩
  else if below then some ⟨d, e⟩
  else if above then some ⟨d + 1, e⟩
  else none

/-- The first grid with a decimal in the span, from the exponent `e` downwards. -/
def firstGrid (s : Span) (e : Int) : Nat → Decimal
  | 0 => (onGrid? s e).getD ⟨s.value / s.den, 0⟩
  | fuel + 1 =>
    match onGrid? s e with
    | some d => d
    | none => firstGrid s (e - 1) fuel

/-- The shortest decimal of the positive number `m * 2 ^ q`; seventeen digits are enough for any
number of fifty-three bits. -/
def shortest (m : Nat) (q : Int) (narrow : Bool) : Decimal :=
  let s := spanOf m q narrow
  firstGrid s (leading s.value s.den) 16

end Decimal
end SceneMarkup
