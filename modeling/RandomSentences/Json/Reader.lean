import RandomSentences.Json.Basic
import RandomSentences.Text.Reading

/-!
# Reading JSON

`Json.read` reads a whole text as one value. The syntax is strict: there are no comments, no
commas at the end of a list, no leading zeros, and no control characters within strings.

The readers of parts return what they read and the rest of the text. Values may be nested to
any depth, and a count that starts at the length of the text bounds the recursion: every step
down or onwards has read a character.
-/

namespace RandomSentences.Json

open Text (dropWord?)

/-- The characters that may stand between the tokens of a text. -/
def isSpace (c : Char) : Bool :=
  c == ' ' || c == '\t' || c == '\n' || c == '\r'

/-- The rest of a text after leading spaces. -/
def skipSpace (cs : List Char) : List Char :=
  cs.dropWhile isSpace

/-- Reads a run of at least one digit. -/
def readDigits (cs : List Char) : Option (List Char × List Char) :=
  let ds := cs.takeWhile Char.isDigit
  if ds.isEmpty then none else some (ds, cs.dropWhile Char.isDigit)

/-- Reads the whole part of a number, which starts with a zero only if it is zero. -/
def readWhole (cs : List Char) : Option (List Char × List Char) := do
  let (ds, rest) ← readDigits cs
  if ds.head? = some '0' ∧ 1 < ds.length then none else return (ds, rest)

/-- Reads a point and digits, if a point comes next. -/
def readFraction (cs : List Char) : Option (Option (List Char) × List Char) :=
  match cs with
  | '.' :: rest => do
    let (ds, rest) ← readDigits rest
    return (some ds, rest)
  | _ => some (none, cs)

/-- Reads an exponent, if one comes next. -/
def readExponent (cs : List Char) : Option (Option (Bool × List Char) × List Char) :=
  match cs with
  | c :: rest =>
    if c = 'e' ∨ c = 'E' then
      match rest with
      | '-' :: rest => do
        let (ds, rest) ← readDigits rest
        return (some (true, ds), rest)
      | '+' :: rest => do
        let (ds, rest) ← readDigits rest
        return (some (false, ds), rest)
      | _ => do
        let (ds, rest) ← readDigits rest
        return (some (false, ds), rest)
    else
      some (none, cs)
  | [] => some (none, [])

/-- Reads a number. -/
def readNumber (cs : List Char) : Option (JsonNumber × List Char) := do
  let (negative, cs) := match cs with
    | '-' :: rest => (true, rest)
    | _ => (false, cs)
  let (whole, cs) ← readWhole cs
  let (fraction, cs) ← readFraction cs
  let (exponent, cs) ← readExponent cs
  return (⟨negative, whole, fraction, exponent⟩, cs)

/-- Reads four hexadecimal digits. -/
def readUnit : List Char → Option (Nat × List Char)
  | a :: b :: c :: d :: rest =>
    if [a, b, c, d].all (Decimal.isDigitIn 16) then
      some (Decimal.ofDigits 16 [a, b, c, d], rest)
    else
      none
  | _ => none

/-- A part of a string: a character, or half of a pair of surrogates. -/
inductive StringPart where
  | char (c : Char)
  | half (unit : Nat)
  deriving DecidableEq, Repr

/-- The character that a pair of surrogates stands for. -/
def pairedChar (high low : Nat) : Char :=
  Char.ofNat (0x10000 + (high - 0xD800) * 0x400 + (low - 0xDC00))

/-- The character after a backslash, for the escapes by a letter. -/
def escapedChar? (c : Char) : Option Char :=
  if c = '\x22' ∨ c = '\x5c' ∨ c = '/' then some c
  else if c = 'b' then some '\x08'
  else if c = 'f' then some '\x0c'
  else if c = 'n' then some '\n'
  else if c = 'r' then some '\r'
  else if c = 't' then some '\t'
  else none

/-- Reads the parts of a string up to its closing quote. -/
def readParts : (fuel : Nat) → List Char → Option (List StringPart × List Char)
  | 0, _ => none
  | _ + 1, [] => none
  | fuel + 1, c :: cs =>
    if c = '\x22' then some ([], cs)
    else if c.toNat < 0x20 then none
    else if c = '\x5c' then
      match cs with
      | 'u' :: rest => do
        let (unit, rest) ← readUnit rest
        let (parts, rest) ← readParts fuel rest
        if 0xD800 ≤ unit ∧ unit < 0xE000 then
          return (.half unit :: parts, rest)
        else
          return (.char (Char.ofNat unit) :: parts, rest)
      | e :: rest => do
        let c ← escapedChar? e
        let (parts, rest) ← readParts fuel rest
        return (.char c :: parts, rest)
      | [] => none
    else do
      let (parts, rest) ← readParts fuel cs
      return (.char c :: parts, rest)

/-- The text of the parts of a string, if every half of a pair has its other half next to
it. -/
def textOfParts? : List StringPart → Option (List Char)
  | [] => some []
  | .char c :: parts => (textOfParts? parts).map (c :: ·)
  | .half high :: .half low :: parts =>
    if high < 0xDC00 ∧ 0xDC00 ≤ low then
      (textOfParts? parts).map (pairedChar high low :: ·)
    else
      none
  | .half _ :: _ => none

/-- Reads a string after its opening quote. -/
def readString (cs : List Char) : Option (Option String × List Char) := do
  let (parts, rest) ← readParts (cs.length + 1) cs
  return ((textOfParts? parts).map String.ofList, rest)

mutual

/-- Reads a value. -/
def readValue : (fuel : Nat) → List Char → Option (Json × List Char)
  | 0, _ => none
  | fuel + 1, cs =>
    match skipSpace cs with
    | [] => none
    | c :: rest =>
      if c = 'n' then (dropWord? "ull".toList rest).map (Json.null, ·)
      else if c = 't' then (dropWord? "rue".toList rest).map (Json.bool true, ·)
      else if c = 'f' then (dropWord? "alse".toList rest).map (Json.bool false, ·)
      else if c = '\x22' then (readString rest).map fun (text, rest) => (Json.string text, rest)
      else if c = '[' then
        match skipSpace rest with
        | ']' :: rest => some (Json.array [], rest)
        | rest => (readItems fuel rest).map fun (items, rest) => (Json.array items, rest)
      else if c = '{' then
        match skipSpace rest with
        | '}' :: rest => some (Json.object [], rest)
        | rest => (readMembers fuel rest).map fun (members, rest) => (Json.object members, rest)
      else (readNumber (c :: rest)).map fun (literal, rest) => (Json.number literal, rest)

/-- Reads the values of an array and its closing bracket. -/
def readItems : (fuel : Nat) → List Char → Option (List Json × List Char)
  | 0, _ => none
  | fuel + 1, cs => do
    let (item, rest) ← readValue fuel cs
    match skipSpace rest with
    | ',' :: rest =>
      let (items, rest) ← readItems fuel rest
      return (item :: items, rest)
    | ']' :: rest => return ([item], rest)
    | _ => none

/-- Reads the members of an object and its closing brace. -/
def readMembers : (fuel : Nat) → List Char → Option (List (Option String × Json) × List Char)
  | 0, _ => none
  | fuel + 1, cs =>
    match skipSpace cs with
    | '\x22' :: rest => do
      let (key, rest) ← readString rest
      match skipSpace rest with
      | ':' :: rest =>
        let (value, rest) ← readValue fuel rest
        match skipSpace rest with
        | ',' :: rest =>
          let (members, rest) ← readMembers fuel rest
          return ((key, value) :: members, rest)
        | '}' :: rest => return ([(key, value)], rest)
        | _ => none
      | _ => none
    | _ => none

end

/-- Reads a whole text as one value. -/
def read (text : String) : Option Json :=
  let cs := text.toList
  match readValue (2 * cs.length + 2) cs with
  | some (value, rest) => if (skipSpace rest).isEmpty then some value else none
  | none => none

end RandomSentences.Json
