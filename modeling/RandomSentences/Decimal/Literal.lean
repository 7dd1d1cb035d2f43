import RandomSentences.Decimal.Binary64

/-!
# Decimal literals of floating-point numbers

The plain form of a floating-point number: an optional sign, digits with at most one point
among or beside them, and an optional exponent. `isFloatText` recognises it, and
`Binary64.ofText` gives the number nearest to it. `Binary64.ofParts` does so for a literal that
is already cut into its digits and its exponent.
-/

namespace RandomSentences.Decimal

/-- The rest of a text after an optional sign. -/
def dropSign : List Char → List Char
  | '+' :: cs => cs
  | '-' :: cs => cs
  | cs => cs

/-- Whether a text is empty or an exponent. -/
def isExponentOrEmpty : List Char → Bool
  | [] => true
  | c :: cs =>
    (c == 'e' || c == 'E') && !(dropSign cs).isEmpty && (dropSign cs).all Char.isDigit

/-- Whether a text is a floating-point number in decimal digits. -/
def isFloatText (cs : List Char) : Bool :=
  let body := dropSign cs
  let whole := body.takeWhile Char.isDigit
  match body.dropWhile Char.isDigit with
  | '.' :: rest =>
    (!whole.isEmpty || !(rest.takeWhile Char.isDigit).isEmpty) &&
      isExponentOrEmpty (rest.dropWhile Char.isDigit)
  | rest => !whole.isEmpty && isExponentOrEmpty rest

/-- The number nearest to one with given digits before and after the point and an exponent. -/
def Binary64.ofParts (negative : Bool) (whole fraction : List Char) (exponent : Int) : Binary64 :=
  ofDecimal negative (ofDigits 10 (whole ++ fraction)) (exponent - fraction.length)

/-- The number nearest to the one that a literal stands for. -/
def Binary64.ofText (cs : List Char) : Binary64 :=
  let body := dropSign cs
  let (fraction, tail) := match body.dropWhile Char.isDigit with
    | '.' :: rest => (rest.takeWhile Char.isDigit, rest.dropWhile Char.isDigit)
    | rest => ([], rest)
  ofParts (cs.head? == some '-') (body.takeWhile Char.isDigit) fraction
    ((integer? (tail.drop 1)).getD 0)

end RandomSentences.Decimal
