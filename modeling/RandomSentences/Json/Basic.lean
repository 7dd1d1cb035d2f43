import RandomSentences.Decimal.Scaling
import RandomSentences.Decimal.Shortest

/-!
# JSON values

A JSON value keeps what its text says: a number is its literal, and the members of an object
come in their order, repeated keys included. Strings of JSON are sequences of 16-bit units, and
an escape may name half of a pair of surrogates without the other half; such a string is no
text and is kept as `none`.
-/

namespace RandomSentences

/-- A number literal: an optional minus sign, the whole part, the digits after a point, and the
sign and digits of an exponent. -/
structure JsonNumber where
  negative : Bool
  whole : List Char
  fraction : Option (List Char)
  exponent : Option (Bool × List Char)
  deriving DecidableEq, Repr

/-- A JSON value. -/
inductive Json where
  | null
  | bool (value : Bool)
  | number (literal : JsonNumber)
  | string (text : Option String)
  | array (items : List Json)
  | object (members : List (Option String × Json))
  deriving Repr

namespace JsonNumber

/-- The literal of a natural number. -/
def ofNat (n : Nat) : JsonNumber :=
  ⟨false, Decimal.digits n, none, none⟩

/-- The literal of an integer. -/
def ofInt (n : Int) : JsonNumber :=
  ⟨n < 0, Decimal.digits n.natAbs, none, none⟩

/-- The integer that a literal stands for, if it has no fraction and no exponent and fits into
64 bits, with or without a sign. The literal `-0` stands for no integer. -/
def integer? (literal : JsonNumber) : Option Int :=
  if literal.fraction.isSome || literal.exponent.isSome then none
  else
    let magnitude := Decimal.ofDigits 10 literal.whole
    if literal.negative then
      if 0 < magnitude ∧ magnitude ≤ Nat.pow 2 63 then some (-magnitude) else none
    else
      if magnitude < UInt64.size then some magnitude else none

/-- Reads digits at the end of a number for as long as it stays below `2 ^ 64`: the number, and
the digits that are left. -/
def appendDigits (n : Nat) : List Char → Nat × List Char
  | [] => (n, [])
  | d :: ds =>
    let next := n * 10 + Decimal.ofDigits 10 [d]
    if next < UInt64.size then appendDigits next ds else (n, d :: ds)

/-- The exponent that a literal gives, zero if there is none. -/
def exponentValue (literal : JsonNumber) : Int :=
  match literal.exponent with
  | none => 0
  | some (negative, ds) =>
    if negative then -(Decimal.ofDigits 10 ds) else Decimal.ofDigits 10 ds

/-- The floating-point number that a literal is read as, unless it is out of range: the digits
that fit into 64 bits as an integer, scaled by a power of ten. -/
def toBinary64? (literal : JsonNumber) : Option Decimal.Binary64 :=
  let fraction := literal.fraction.getD []
  let (whole, dropped) := appendDigits 0 literal.whole
  let (significand, ignored) := appendDigits whole fraction
  let places : Int := fraction.length - ignored.length
  (Decimal.Binary64.ofDecimal literal.negative significand 0).scale?
    (literal.exponentValue + dropped.length - places)

/-- A number as a program takes it: an integer of 64 bits if it is one, else a floating-point
number, and nothing beyond the range of these. -/
inductive Value where
  | integer (n : Int)
  | float (x : Decimal.Binary64)
  deriving DecidableEq, Repr

/-- The value of a literal, unless it is out of range. -/
def value? (literal : JsonNumber) : Option Value :=
  match literal.integer? with
  | some n => some (.integer n)
  | none => literal.toBinary64?.map .float

/-- The text of a number: an integer in base ten, another number at its shortest. -/
def Value.text : Value → String
  | integer n => Decimal.intText n
  | float x => x.text

end JsonNumber

namespace Json

/-- The string with a given text. -/
def ofString (text : String) : Json :=
  .string (some text)

/-- The object with given texts as keys. -/
def ofMembers (members : List (String × Json)) : Json :=
  .object (members.map fun (key, value) => (some key, value))

end Json

end RandomSentences
