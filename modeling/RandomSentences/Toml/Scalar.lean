import RandomSentences.Decimal.Literal
import RandomSentences.Toml.Basic

/-!
# Numbers and dates in TOML

The readers here take a value that starts with a digit or a sign: a date or a time if it is
one, else a floating-point number, else an integer of 64 bits.
-/

namespace RandomSentences.Toml

/-! ### Numbers -/

/-- Reads digits with single underscores between two of them, up to what is neither. The
result is without the underscores. -/
def readGrouped (base : Nat) : (afterDigit : Bool) → List Char → Option (List Char × List Char)
  | afterDigit, [] => if afterDigit then some ([], []) else none
  | afterDigit, c :: cs =>
    if Decimal.isDigitIn base c then
      (readGrouped base true cs).map fun (ds, rest) => (c :: ds, rest)
    else if afterDigit then
      if c = '_' then readGrouped base false cs else some ([], c :: cs)
    else
      none

/-- Reads at least one digit, and further digits as in `readGrouped`. -/
def readDigitsIn (base : Nat) (cs : List Char) : Option (List Char × List Char) :=
  readGrouped base false cs

/-- Reads the whole part of a decimal number, which starts with a zero only if it is zero. -/
def readWhole (cs : List Char) : Option (List Char × List Char) :=
  match cs with
  | '0' :: rest => some (['0'], rest)
  | _ => readDigitsIn 10 cs

/-- Reads an optional sign: whether it is a minus sign, and the rest. -/
def readSign : List Char → Bool × List Char
  | '-' :: cs => (true, cs)
  | '+' :: cs => (false, cs)
  | cs => (false, cs)

/-- Reads an exponent after its letter. -/
def readExponent (cs : List Char) : Option (Int × List Char) := do
  let (negative, cs) := readSign cs
  let (ds, rest) ← readDigitsIn 10 cs
  let magnitude : Int := Decimal.ofDigits 10 ds
  return (if negative then -magnitude else magnitude, rest)

/-- Whether a text goes on with the letter of an exponent. -/
def startsExponent (cs : List Char) : Bool :=
  cs.head? == some 'e' || cs.head? == some 'E'

/-- Reads the fraction and the exponent of a floating-point number, of which there is at least
one. -/
def readFloatTail (cs : List Char) : Option (List Char × Int × List Char) :=
  match cs with
  | '.' :: rest => do
    let (fraction, rest) ← readDigitsIn 10 rest
    if startsExponent rest then
      let (exponent, rest) ← readExponent (rest.drop 1)
      return (fraction, exponent, rest)
    else
      return (fraction, 0, rest)
  | _ =>
    if startsExponent cs then do
      let (exponent, rest) ← readExponent (cs.drop 1)
      return ([], exponent, rest)
    else
      none

/-- Reads an infinite number or a number that is none, by its name. -/
def readNamedFloat (negative : Bool) : List Char → Option (Decimal.Binary64 × List Char)
  | 'i' :: 'n' :: 'f' :: cs => some (.infinite negative, cs)
  | 'n' :: 'a' :: 'n' :: cs => some (.notANumber, cs)
  | _ => none

/-- Reads a floating-point number. One that is too large is refused, and one that is too far
below zero counts as infinite. -/
def readFloat (cs : List Char) : Option (Toml × List Char) :=
  let (negative, body) := readSign cs
  match readNamedFloat negative body with
  | some (x, rest) => some (float x, rest)
  | none => do
    let (whole, rest) ← readWhole body
    let (fraction, exponent, rest) ← readFloatTail rest
    let x := Decimal.Binary64.ofParts negative whole fraction exponent
    if x = .infinite false then none else return (float x, rest)

/-- An integer, if it fits into 64 bits with a sign. -/
def integer64? (n : Int) : Option Toml :=
  if Int64.minValue.toInt ≤ n ∧ n ≤ Int64.maxValue.toInt then some (integer n) else none

/-- Reads an integer: in base sixteen, eight or two after a mark for the base, or in base ten
with an optional sign. -/
def readInteger (cs : List Char) : Option (Toml × List Char) :=
  let inBase (base : Nat) (rest : List Char) : Option (Toml × List Char) := do
    let (ds, rest) ← readDigitsIn base rest
    return (← integer64? (Decimal.ofDigits base ds), rest)
  match cs with
  | '0' :: 'x' :: rest => inBase 16 rest
  | '0' :: 'o' :: rest => inBase 8 rest
  | '0' :: 'b' :: rest => inBase 2 rest
  | _ => do
    let (negative, body) := readSign cs
    let (ds, rest) ← readWhole body
    let magnitude : Int := Decimal.ofDigits 10 ds
    return (← integer64? (if negative then -magnitude else magnitude), rest)

/-! ### Dates and times -/

/-- Reads a number of exactly so many digits, between two bounds. -/
def readField (count least greatest : Nat) (cs : List Char) : Option (Nat × List Char) :=
  let ds := cs.take count
  let n := Decimal.ofDigits 10 ds
  if ds.length = count ∧ ds.all Char.isDigit ∧ least ≤ n ∧ n ≤ greatest then
    some (n, cs.drop count)
  else
    none

/-- The number of days of a month. -/
def daysOfMonth (year month : Nat) : Nat :=
  if month = 2 then
    if year % 4 = 0 ∧ (year % 100 ≠ 0 ∨ year % 400 = 0) then 29 else 28
  else if month = 4 ∨ month = 6 ∨ month = 9 ∨ month = 11 then 30
  else 31

/-- Drops one given character. -/
def dropChar? (c : Char) : List Char → Option (List Char)
  | [] => none
  | d :: cs => if d = c then some cs else none

/-- The rest of a text after a date. -/
def dropDate? (cs : List Char) : Option (List Char) := do
  let (year, cs) ← readField 4 0 9999 cs
  let (month, cs) ← readField 2 1 12 (← dropChar? '-' cs)
  let (_, cs) ← readField 2 1 (daysOfMonth year month) (← dropChar? '-' cs)
  return cs

/-- The rest of a text after a time of day. -/
def dropTime? (cs : List Char) : Option (List Char) := do
  let (_, cs) ← readField 2 0 23 cs
  let (_, cs) ← readField 2 0 59 (← dropChar? ':' cs)
  let (_, cs) ← readField 2 0 60 (← dropChar? ':' cs)
  match cs with
  | '.' :: d :: rest => if d.isDigit then return rest.dropWhile Char.isDigit else return cs
  | _ => return cs

/-- The rest of a text after the offset of a time, if there is one. -/
def dropOffset (cs : List Char) : List Char :=
  match cs with
  | 'Z' :: rest => rest
  | 'z' :: rest => rest
  | c :: rest =>
    if c = '+' ∨ c = '-' then
      let after := do
        let (_, rest) ← readField 2 0 23 rest
        let (_, rest) ← readField 2 0 59 (← dropChar? ':' rest)
        return rest
      after.getD cs
    else
      cs
  | [] => []

/-- Reads a date with an optional time after it, or a time. -/
def readDate (cs : List Char) : Option (Toml × List Char) :=
  match dropDate? cs with
  | some rest =>
    let time := match rest with
      | c :: after => if c = 'T' ∨ c = 't' ∨ c = ' ' then dropTime? after else none
      | [] => none
    match time with
    | some after => some (date, dropOffset after)
    | none => some (date, rest)
  | none => (dropTime? cs).map (date, ·)

/-- Reads a value that starts with a digit or a sign. -/
def readScalar (cs : List Char) : Option (Toml × List Char) :=
  (readDate cs).orElse fun _ => (readFloat cs).orElse fun _ => readInteger cs

end RandomSentences.Toml
