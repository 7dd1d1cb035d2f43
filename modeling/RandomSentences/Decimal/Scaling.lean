import RandomSentences.Decimal.Binary64

/-!
# Scaling by powers of ten

A decimal can be read as a floating-point number in two steps: its significand is rounded to
one, and the result is multiplied or divided by a power of ten, which is rounded once more.
This is the nearest number whenever the significand and the power are floating-point numbers
themselves, so for any significand below `2 ^ 53` with an exponent from `-22` to `22`; for
longer decimals the result may be a neighbour of the nearest number.

`Binary64.scale?` is the second step. The powers are those that have a place in the range, up
to `10 ^ 308`: a division by a greater one is made in several steps, and a product with a
greater one is out of range, unless it is zero.
-/

namespace RandomSentences.Decimal

/-- The greatest exponent of a power of ten in the range. -/
def maxPower : Nat := 308

namespace Binary64

/-- The number nearest to a quotient, which may be zero. -/
def nearest (negative : Bool) (num den : Nat) : Binary64 :=
  if num = 0 then finite negative 0 minExponent else ofQuotient negative num den

/-- Whether a number is zero, of either sign. -/
def isZero : Binary64 → Bool
  | finite _ mantissa _ => mantissa == 0
  | _ => false

/-- Whether a number is finite. -/
def isFinite : Binary64 → Bool
  | finite _ _ _ => true
  | _ => false

/-- The product of a number and a power of ten in the range, rounded. -/
def timesPower (x : Binary64) (power : Nat) : Binary64 :=
  match x, ofDecimal false 1 power with
  | finite negative m e, finite _ p q =>
    nearest negative (m * p * numeratorPow 2 (e + q)) (denominatorPow 2 (e + q))
  | x, _ => x

/-- The quotient of a number and a power of ten in the range, rounded. -/
def overPower (x : Binary64) (power : Nat) : Binary64 :=
  match x, ofDecimal false 1 power with
  | finite negative m e, finite _ p q =>
    nearest negative (m * numeratorPow 2 (e - q)) (p * denominatorPow 2 (e - q))
  | x, _ => x

/-- The quotient of a number and any power of ten, rounded after each step. -/
def shiftDown (x : Binary64) (power : Nat) : Binary64 :=
  if x.isZero then x
  else if power ≤ maxPower then x.overPower power
  else (x.overPower maxPower).shiftDown (power - maxPower)
  termination_by power
  decreasing_by
    simp only [maxPower] at *
    omega

/-- A number times `10 ^ exponent`, rounded, unless it is out of range. -/
def scale? (x : Binary64) (exponent : Int) : Option Binary64 :=
  if x.isZero then some x
  else if exponent < 0 then some (x.shiftDown exponent.natAbs)
  else if exponent ≤ maxPower then some (x.timesPower exponent.toNat) |>.filter isFinite
  else none

end Binary64

end RandomSentences.Decimal
