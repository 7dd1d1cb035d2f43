import RandomSentences.Decimal.Digits

/-!
# Escapes in strings

In a string between double quotes a backslash starts an escape: a quote, a backslash or a
control character by one letter, or any character by four or eight hexadecimal digits of its
code point.
-/

namespace RandomSentences.Text

/-- The character that a letter after a backslash stands for. -/
def escapedChar? (c : Char) : Option Char :=
  if c = '\x22' ∨ c = '\x5c' then some c
  else if c = 'b' then some '\x08'
  else if c = 'f' then some '\x0c'
  else if c = 'n' then some '\n'
  else if c = 'r' then some '\r'
  else if c = 't' then some '\t'
  else none

/-- The character with a code point, unless the number is none. -/
def charOfCode? (n : Nat) : Option Char :=
  if h : n.isValidChar then some (Char.ofNatAux n h) else none

/-- Reads a code point of exactly so many hexadecimal digits. -/
def readCode (count : Nat) (cs : List Char) : Option (Char × List Char) :=
  let ds := cs.take count
  if ds.length = count ∧ ds.all (Decimal.isDigitIn 16) then
    (charOfCode? (Decimal.ofDigits 16 ds)).map (·, cs.drop count)
  else
    none

/-- Reads an escape after its backslash. -/
def readEscape : List Char → Option (Char × List Char)
  | [] => none
  | 'u' :: cs => readCode 4 cs
  | 'U' :: cs => readCode 8 cs
  | c :: cs => (escapedChar? c).map (·, cs)

end RandomSentences.Text
