import RandomSentences.Text.InvisibleTable

/-!
# Texts in quotes, for diagnostics

A text is shown between quotes with every character visible: quotes and backslashes after a
backslash, five controls by a letter or a zero, and each other character that does not show by
itself by its code point in hexadecimal.
-/

namespace RandomSentences.Text

/-- Whether a character shows by itself. -/
def isVisible (c : Char) : Bool :=
  !invisibleRanges.any fun (first, last) => first ≤ c.toNat && c.toNat ≤ last

/-- How a character is shown between quotes. -/
def showChar (c : Char) : List Char :=
  if c = '\x22' then ['\x5c', '\x22']
  else if c = '\x5c' then ['\x5c', '\x5c']
  else if c = '\n' then ['\x5c', 'n']
  else if c = '\r' then ['\x5c', 'r']
  else if c = '\t' then ['\x5c', 't']
  else if c = '\x00' then ['\x5c', '0']
  else if isVisible c then [c]
  else '\x5c' :: 'u' :: '\x7b' :: Nat.toDigits 16 c.toNat ++ ['\x7d']

/-- A text between quotes. -/
def quoted (text : String) : String :=
  String.ofList ('\x22' :: text.toList.flatMap showChar ++ ['\x22'])

end RandomSentences.Text
