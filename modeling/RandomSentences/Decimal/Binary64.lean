import RandomSentences.Decimal.Digits

/-!
# Binary floating-point numbers of 64 bits

A finite number is a mantissa below `2 ^ 53` times a power of two from `2 ^ (-1074)` to
`2 ^ 971`. `Binary64.ofDecimal` rounds a decimal number to the nearest of them, ties to an even
mantissa, and everything from halfway beyond the greatest one to infinity. All arithmetic is
exact, on natural numbers.
-/

namespace RandomSentences.Decimal

/-- A floating-point number. -/
inductive Binary64 where
  /-- The number `mantissa * 2 ^ exponent`, or its negative. Zero has a sign. -/
  | finite (negative : Bool) (mantissa : Nat) (exponent : Int)
  | infinite (negative : Bool)
  | notANumber
  deriving DecidableEq, Repr

/-- The least exponent of a finite number. -/
def minExponent : Int := -1074

/-- The greatest exponent of a finite number. -/
def maxExponent : Int := 971

/-- A power with an integer exponent, as a numerator. -/
def numeratorPow (base : Nat) (exponent : Int) : Nat :=
  base.pow exponent.toNat

/-- A power with an integer exponent, as a denominator. -/
def denominatorPow (base : Nat) (exponent : Int) : Nat :=
  base.pow (-exponent).toNat

/-- The quotient of two numbers rounded to the nearest, a tie to the even neighbour. -/
def roundQuotient (num den : Nat) : Nat :=
  let q := num / den
  let r := num % den
  if 2 * r < den then q
  else if den < 2 * r then q + 1
  else if q % 2 = 0 then q else q + 1

/-- The exponent for which a positive quotient has a mantissa of 53 bits, but at least the
least exponent there is. -/
def mantissaExponent (num den : Nat) : Int :=
  let estimate : Int := (num.log2 : Int) - den.log2 - 52
  let short := num * denominatorPow 2 estimate < Nat.pow 2 52 * (den * numeratorPow 2 estimate)
  max minExponent (if short then estimate - 1 else estimate)

/-- The floating-point number nearest to a positive quotient. -/
def ofQuotient (negative : Bool) (num den : Nat) : Binary64 :=
  let exponent := mantissaExponent num den
  let mantissa := roundQuotient (num * denominatorPow 2 exponent) (den * numeratorPow 2 exponent)
  let (mantissa, exponent) :=
    if mantissa = Nat.pow 2 53 then (Nat.pow 2 52, exponent + 1) else (mantissa, exponent)
  if maxExponent < exponent then .infinite negative else .finite negative mantissa exponent

/-- The floating-point number nearest to `significand * 10 ^ exponent`, or to its negative.
Numbers far outside of the range are recognised by the number of their digits, so that no
power of ten beyond the range is computed. -/
def Binary64.ofDecimal (negative : Bool) (significand : Nat) (exponent : Int) : Binary64 :=
  let magnitude : Int := (digits significand).length + exponent
  if significand = 0 ∨ magnitude < -330 then .finite negative 0 minExponent
  else if 310 < magnitude then .infinite negative
  else ofQuotient negative (significand * numeratorPow 10 exponent) (denominatorPow 10 exponent)

end RandomSentences.Decimal
