import SceneMarkup.Decimal.Shortest

/-!
# The text of floating-point numbers

Numbers are written with their shortest digits: plainly, with at least one digit behind the point,
as long as the first digit is neither too far in front of the point nor too far behind it, and with
an exponent otherwise.

## Main definitions

* `Layout`, `layout` — where plain notation ends.
* `plain`, `scientific`, `Layout.render` — the text of a decimal.
* `Binary`, `decode` — the parts of a floating-point number.
* `floatText` — the text of a floating-point number.
-/

namespace SceneMarkup
namespace Decimal

/-- The exponents of the first digit for which a decimal is written plainly. -/
structure Layout where
  /-- The least of them. -/
  least : Int
  /-- The greatest of them. -/
  greatest : Int
  deriving Repr

/-- Plain notation reaches from five places behind the point to sixteen digits in front of it. -/
def layout : Layout := ⟨-5, 15⟩

/-- A list of digits without the zeros at its end, but with at least its first digit. -/
def withoutZeros : List Char → List Char
  | [] => []
  | c :: s => c :: (s.reverse.dropWhile (· == '0')).reverse

/-- Digits whose first has the exponent `e`, written plainly. -/
def plain (digits : List Char) (e : Int) : List Char :=
  if e < 0 then "0.".toList ++ List.replicate (-e - 1).toNat '0' ++ digits
  else
    let n := e.toNat + 1
    if digits.length ≤ n then
      digits ++ List.replicate (n - digits.length) '0' ++ ".0".toList
    else digits.take n ++ '.' :: digits.drop n

/-- An exponent with its sign. -/
def exponentText (e : Int) : List Char :=
  if e < 0 then '-' :: Nat.toDigits 10 (-e).toNat else '+' :: Nat.toDigits 10 e.toNat

/-- Digits whose first has the exponent `e`, written with that exponent. -/
def scientific (digits : List Char) (e : Int) : List Char :=
  match digits with
  | [] => []
  | [c] => c :: 'e' :: exponentText e
  | c :: s => c :: '.' :: s ++ 'e' :: exponentText e

/-- The text of a decimal. -/
def Layout.render (l : Layout) (d : Decimal) : List Char :=
  let digits := Nat.toDigits 10 d.coefficient
  let e := d.exponent + digits.length - 1
  if l.least ≤ e ∧ e ≤ l.greatest then plain (withoutZeros digits) e
  else scientific (withoutZeros digits) e

/-- The parts of a floating-point number. -/
inductive Binary where
  /-- No number. -/
  | nan
  /-- Infinitely large. -/
  | infinite (negative : Bool)
  /-- The number `m * 2 ^ q` with a sign; `narrow` when the next smaller one is only half as far
  away as the next greater one. -/
  | finite (negative : Bool) (m : Nat) (q : Int) (narrow : Bool)
  deriving Repr, DecidableEq

/-- The parts of a floating-point number by its sixty-four bits. -/
def decodeBits (bits : Nat) : Binary :=
  let negative := bits / Nat.pow 2 63 == 1
  let field : Nat := bits / Nat.pow 2 52 % Nat.pow 2 11
  let fraction : Nat := bits % Nat.pow 2 52
  if field = Nat.pow 2 11 - 1 then if fraction = 0 then .infinite negative else .nan
  else if field = 0 then .finite negative fraction (-1074) false
  else .finite negative (fraction + Nat.pow 2 52) ((field : Int) - 1075) (fraction == 0 && 1 < field)

/-- The parts of a floating-point number. -/
def decode (x : Float) : Binary := decodeBits x.toBits.toNat

/-- The text of a finite number by its parts; other numbers have none. -/
def Binary.text? : Binary → Option (List Char)
  | .finite negative m q narrow =>
    let digits := if m = 0 then layout.render ⟨0, 0⟩ else layout.render (shortest m q narrow)
    some (if negative then '-' :: digits else digits)
  | _ => none

/-- The text of a floating-point number; one that is not finite is written as `null`. -/
def floatText (x : Float) : String := String.ofList ((decode x).text?.getD "null".toList)

end Decimal
end SceneMarkup
