import RandomSentences.Config.Value
import RandomSentences.Decimal.Literal
import RandomSentences.Text.Blank
import RandomSentences.Text.Escape
import RandomSentences.Text.Reading

/-!
# Variables of the environment

A variable of the environment is a text, and its value is what the text looks like: a truth
value, a number, a string in quotes, a list in brackets, a table in braces, or else a plain
text. A text that goes on after such a value is taken as a whole, blanks included.
-/

namespace RandomSentences.Variable

open Text (dropWord? readEscape)

/-- Whether a character is a blank of ASCII. -/
def isSpace (c : Char) : Bool :=
  c == ' ' || c == '\t' || c == '\n' || c == '\x0c' || c == '\r'

/-- The rest of a text after leading blanks. -/
def skipSpace (cs : List Char) : List Char :=
  cs.dropWhile isSpace

/-- Whether a character may not occur in a plain text. -/
def isSeparator (c : Char) : Bool :=
  c == ',' || c == '{' || c == '}' || c == '[' || c == ']'

/-! ### Strings -/

/-- Whether a character may stand in a string as it is: no control but the tab may. -/
def isStringPart (c : Char) : Bool :=
  c == '\t' || ('\x20' ≤ c && c != '\x7f')

/-- Reads a string after its opening quote: the characters before its first escape, and those
from there on, of which there are none if there is no escape. -/
def readParts : (fuel : Nat) → List Char → Option (List Char × List Char × List Char)
  | 0, _ => none
  | _ + 1, [] => none
  | fuel + 1, c :: cs =>
    if c = '\x22' then some ([], [], cs)
    else if c = '\x5c' then do
      let (c, rest) ← readEscape cs
      let (before, after, rest) ← readParts fuel rest
      return ([], c :: before ++ after, rest)
    else if isStringPart c then do
      let (before, after, rest) ← readParts fuel cs
      return (c :: before, after, rest)
    else
      none

/-- The longest start of a text that takes at most so many bytes. -/
def takeBytes : (size : Nat) → List Char → List Char
  | _, [] => []
  | size, c :: cs => if c.utf8Size ≤ size then c :: takeBytes (size - c.utf8Size) cs else []

/-- Reads a string after its opening quote. If it has an escape, then of what stands before the
first one only as many bytes are kept as there are characters, which shortens all that is not
of ASCII. -/
def readString (cs : List Char) : Option (List Char × List Char) := do
  let (before, after, rest) ← readParts (cs.length + 1) cs
  if after.isEmpty then return (before, rest)
  return (takeBytes before.length before ++ after, rest)

/-! ### Values -/

/-- The value of a plain text: a number with a point, an integer of 64 bits with or without a
sign, or a text without the blanks around it. -/
def ofPlain (cs : List Char) : ConfigValue :=
  let body := Text.trim cs
  let integer :=
    match (Decimal.natural? body).filter fun n => n < UInt64.size with
    | some n => some (n : Int)
    | none =>
      (Decimal.integer? body).filter fun n =>
        Int64.minValue.toInt ≤ n ∧ n ≤ Int64.maxValue.toInt
  if body.contains '.' && Decimal.isFloatText body then .float (Decimal.Binary64.ofText body)
  else
    match integer with
    | some n => .integer n
    | none => .text (String.ofList body)

/-- The rest of a text after a key. -/
def dropKey? (cs : List Char) : Option (List Char) :=
  match cs with
  | '\x22' :: rest => (readString rest).map Prod.snd
  | _ =>
    let isKeyChar (c : Char) := c.isAlphanum || c == '_' || c == '-'
    if (cs.takeWhile isKeyChar).isEmpty then none else some (cs.dropWhile isKeyChar)

mutual

/-- Reads a value and the blanks around it. -/
def readValue : (fuel : Nat) → List Char → Option (ConfigValue × List Char)
  | 0, _ => none
  | fuel + 1, cs => do
    let cs := skipSpace cs
    -- a word may be the start of a longer text, which the rest then shows
    let (value, rest) ←
      match dropWord? "true".toList cs, dropWord? "false".toList cs, cs with
      | some rest, _, _ => some (.bool true, rest)
      | _, some rest, _ => some (.bool false, rest)
      | _, _, '{' :: rest => (dropMembers? fuel rest).map (ConfigValue.compound, ·)
      | _, _, '[' :: rest => (dropItems? fuel rest).map (ConfigValue.compound, ·)
      | _, _, '\x22' :: rest =>
        (readString rest).map fun (text, rest) =>
          (ConfigValue.text (String.ofList text), rest)
      | _, _, '\x27' :: c :: rest =>
        (dropWord? ['\x27'] rest).map (ConfigValue.text (String.singleton c), ·)
      | _, _, ['\x27'] => none
      | _, _, cs =>
        some (ofPlain (cs.takeWhile (!isSeparator ·)), cs.dropWhile (!isSeparator ·))
    return (value, skipSpace rest)

/-- The rest of a text after the values of a list and its closing bracket. -/
def dropItems? : (fuel : Nat) → List Char → Option (List Char)
  | 0, _ => none
  | fuel + 1, cs =>
    match cs with
    | ']' :: rest => some rest
    | _ => do
      let (_, rest) ← readValue fuel cs
      match rest with
      | ',' :: rest => dropItems? fuel rest
      | rest => dropWord? [']'] rest

/-- The rest of a text after the keys and values of a table and its closing brace. -/
def dropMembers? : (fuel : Nat) → List Char → Option (List Char)
  | 0, _ => none
  | fuel + 1, cs =>
    match cs with
    | '}' :: rest => some rest
    | _ => do
      let rest ← dropKey? (skipSpace cs)
      let rest ← dropWord? ['='] (skipSpace rest)
      let (_, rest) ← readValue fuel rest
      match rest with
      | ',' :: rest => dropMembers? fuel rest
      | rest => dropWord? ['}'] rest

end

/-- The value of a variable with a given text. -/
def value (text : String) : ConfigValue :=
  let cs := text.toList
  match readValue (2 * cs.length + 2) cs with
  | some (value, []) => value
  | _ => .text text

end RandomSentences.Variable
