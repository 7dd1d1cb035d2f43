import RandomSentences.Json.Basic

/-!
# Writing JSON

A value is written on one line without blanks, or spread over lines with two blanks for each
level. In a string the quote, the backslash and the control characters are escaped, five of
them by a letter and the others by their code; every other character stands for itself. A
string that is no text is written as an empty one.
-/

namespace RandomSentences.Json

/-- The digit of a value below sixteen. -/
def hexDigit (n : Nat) : Char :=
  (Nat.digitChar n)

/-- How a character is written within a string. -/
def escape (c : Char) : List Char :=
  if c = '\x22' then ['\x5c', '\x22']
  else if c = '\x5c' then ['\x5c', '\x5c']
  else if c = '\x08' then ['\x5c', 'b']
  else if c = '\x0c' then ['\x5c', 'f']
  else if c = '\n' then ['\x5c', 'n']
  else if c = '\r' then ['\x5c', 'r']
  else if c = '\t' then ['\x5c', 't']
  else if c.toNat < 0x20 then
    ['\x5c', 'u', '0', '0', hexDigit (c.toNat / 16), hexDigit (c.toNat % 16)]
  else [c]

/-- A string literal. -/
def quote (text : String) : List Char :=
  '\x22' :: text.toList.flatMap escape ++ ['\x22']

/-- A number literal. -/
def numberText (literal : JsonNumber) : List Char :=
  let sign := if literal.negative then ['-'] else []
  let fraction := match literal.fraction with
    | none => []
    | some ds => '.' :: ds
  let exponent := match literal.exponent with
    | none => []
    | some (negative, ds) => 'e' :: (if negative then '-' :: ds else ds)
  sign ++ literal.whole ++ fraction ++ exponent

mutual

/-- The text of a value on one line. -/
def print : Json → List Char
  | null => "null".toList
  | bool true => "true".toList
  | bool false => "false".toList
  | number literal => numberText literal
  | string text => quote (text.getD "")
  | array items => '[' :: printItems items ++ [']']
  | object members => '{' :: printMembers members ++ ['}']

/-- The texts of some values, with commas between them. -/
def printItems : List Json → List Char
  | [] => []
  | [item] => print item
  | item :: items => print item ++ ',' :: printItems items

/-- The texts of the members of an object, with commas between them. -/
def printMembers : List (Option String × Json) → List Char
  | [] => []
  | [(key, value)] => quote (key.getD "") ++ ':' :: print value
  | (key, value) :: members =>
    quote (key.getD "") ++ ':' :: print value ++ ',' :: printMembers members

end

/-- A line break and the blanks of a level. -/
def newline (level : Nat) : List Char :=
  '\n' :: List.replicate (2 * level) ' '

mutual

/-- The text of a value spread over lines, from some level on. -/
def printPretty (level : Nat) : Json → List Char
  | array [] => ['[', ']']
  | array (item :: items) =>
    '[' :: prettyItems (level + 1) (item :: items) ++ newline level ++ [']']
  | object [] => ['{', '}']
  | object (member :: members) =>
    '{' :: prettyMembers (level + 1) (member :: members) ++ newline level ++ ['}']
  | value => print value

/-- The texts of some values, each on lines of its own. -/
def prettyItems (level : Nat) : List Json → List Char
  | [] => []
  | [item] => newline level ++ printPretty level item
  | item :: items => newline level ++ printPretty level item ++ ',' :: prettyItems level items

/-- The texts of the members of an object, each on lines of its own. -/
def prettyMembers (level : Nat) : List (Option String × Json) → List Char
  | [] => []
  | [(key, value)] => newline level ++ quote (key.getD "") ++ ':' :: ' ' :: printPretty level value
  | (key, value) :: members =>
    newline level ++ quote (key.getD "") ++ ':' :: ' ' :: printPretty level value ++
      ',' :: prettyMembers level members

end

end RandomSentences.Json
