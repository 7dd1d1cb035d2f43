import RandomSentences.Decimal.Binary64

/-!
# The shortest decimal text of a floating-point number

Among the decimal numbers that round to a given floating-point number, the one with the fewest
digits is written, of several the nearest, and of two equally near the greater. The text never
has an exponent: zeros fill the places up to the point, and a whole number has no point.

The numbers that round to `m * 2 ^ e` form an interval around it, with its ends exactly if `m`
is even. For each count of digits up to 17 the two neighbours of the number on that decimal
grid are tried; the first grid with a neighbour inside the interval gives the digits.
-/

namespace RandomSentences.Decimal

/-- Compares `a * 10 ^ j` with `b * 2 ^ q`. -/
def compareScaled (a : Nat) (j : Int) (b : Nat) (q : Int) : Ordering :=
  compare (a * numeratorPow 10 j * denominatorPow 2 q) (b * numeratorPow 2 q * denominatorPow 10 j)

/-- Whether `a * 10 ^ j` rounds to the number with a positive mantissa and an exponent. Below a
power of two the next number is only half as far away. -/
def roundsTo (mantissa : Nat) (exponent : Int) (a : Nat) (j : Int) : Bool :=
  let gap := if mantissa = Nat.pow 2 52 ∧ minExponent < exponent then 1 else 2
  let below := compareScaled a j (4 * mantissa - gap) (exponent - 2)
  let above := compareScaled a j (4 * mantissa + 2) (exponent - 2)
  (below == .gt || (below == .eq && mantissa % 2 == 0)) &&
    (above == .lt || (above == .eq && mantissa % 2 == 0))

/-- The exponent of the first decimal place of the positive number `num / den`. -/
def leadingPlace (num den : Nat) : Int :=
  if den ≤ num then
    ((digits (num / den)).length : Int) - 1
  else
    -((((List.range 400).find? fun s => den ≤ num * Nat.pow 10 s).getD 400 : Nat) : Int)

/-- The neighbour of a number on the decimal grid with some count of digits, if one rounds to
the number: the significand and the exponent of its last place. -/
def neighbour? (mantissa : Nat) (exponent : Int) (place : Int) (count : Nat) :
    Option (Nat × Int) :=
  let j := place - count + 1
  let num := mantissa * numeratorPow 2 exponent * denominatorPow 10 j
  let den := denominatorPow 2 exponent * numeratorPow 10 j
  let down := num / den
  let up := down + 1
  let downFits := roundsTo mantissa exponent down j
  let upFits := roundsTo mantissa exponent up j
  if downFits && upFits then
    -- of two equally near ones the greater is taken
    some (if 2 * (num % den) < den then down else up, j)
  else if downFits then some (down, j)
  else if upFits then some (up, j)
  else none

/-- A decimal without the zero that its last place may hold. The point above a number on the
grid of one digit may be the next power of ten, which has a zero in that place. -/
def dropZero (significand : Nat) (place : Int) : Nat × Int :=
  if significand % 10 = 0 then (significand / 10, place + 1) else (significand, place)

/-- The shortest decimal of a positive number: its significand and the exponent of its last
place. -/
def shortest (mantissa : Nat) (exponent : Int) : Nat × Int :=
  let place := leadingPlace (mantissa * numeratorPow 2 exponent) (denominatorPow 2 exponent)
  let counts := (List.range 17).map (· + 1)
  let (significand, place) := (counts.findSome? (neighbour? mantissa exponent place)).getD (0, 0)
  dropZero significand place

/-- The text of `significand * 10 ^ exponent`, without an exponent. -/
def positional (significand : Nat) (exponent : Int) : List Char :=
  let ds := digits significand
  if 0 ≤ exponent then
    ds ++ List.replicate exponent.toNat '0'
  else
    let places := (-exponent).toNat
    if places < ds.length then
      ds.take (ds.length - places) ++ '.' :: ds.drop (ds.length - places)
    else
      '0' :: '.' :: (List.replicate (places - ds.length) '0' ++ ds)

/-- The shortest text of a floating-point number. -/
def Binary64.text : Binary64 → String
  | .notANumber => "NaN"
  | .infinite negative => if negative then "-inf" else "inf"
  | .finite negative mantissa exponent =>
    let magnitude :=
      if mantissa = 0 then ['0']
      else
        let (significand, place) := shortest mantissa exponent
        positional significand place
    String.ofList (if negative then '-' :: magnitude else magnitude)

end RandomSentences.Decimal
