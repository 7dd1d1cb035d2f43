import RandomSentences.Text.Escape
import RandomSentences.Text.Reading

/-!
# Strings and keys in TOML

A string stands between double quotes, where a backslash starts an escape, or between single
quotes, where every character stands for itself. Three quotes of either kind enclose a text of
several lines, which drops a line break right at its start. Between double quotes such a text
may also end a line in a backslash, which drops the line break and all blanks after it.

A key is a bare word or a string on one line, and a path of keys has dots between them.
-/

namespace RandomSentences.Toml

open Text (dropWord? readEscape)

/-! ### Blanks -/

/-- Whether a character is a blank within a line. -/
def isSpace (c : Char) : Bool :=
  c == ' ' || c == '\t'

/-- The rest of a text after leading blanks. -/
def skipSpace (cs : List Char) : List Char :=
  cs.dropWhile isSpace

/-- Whether a character may stand in a comment and within quotes on one line: a tab, or any
character that is no control character of ASCII. -/
def isPlain (c : Char) : Bool :=
  c == '\t' || (0x20 ≤ c.toNat && c.toNat != 0x7F)

/-- The rest of a text after a line break. -/
def dropLineBreak? : List Char → Option (List Char)
  | '\n' :: cs => some cs
  | '\r' :: '\n' :: cs => some cs
  | _ => none

/-- The rest of a text after blanks and line breaks. -/
def skipBlankLines : List Char → List Char
  | [] => []
  | '\r' :: '\n' :: cs => skipBlankLines cs
  | c :: cs => if isSpace c || c == '\n' then skipBlankLines cs else c :: cs

/-! ### Strings -/

/-- Reads up to the double quote that closes a string on one line. -/
def readBasic : (fuel : Nat) → List Char → Option (List Char × List Char)
  | 0, _ => none
  | _ + 1, [] => none
  | fuel + 1, c :: cs =>
    if c = '\x22' then some ([], cs)
    else if c = '\x5c' then do
      let (c, rest) ← readEscape cs
      let (text, rest) ← readBasic fuel rest
      return (c :: text, rest)
    else if isPlain c then do
      let (text, rest) ← readBasic fuel cs
      return (c :: text, rest)
    else
      none

/-- Reads up to the single quote that closes a string on one line. -/
def readRaw : List Char → Option (List Char × List Char)
  | [] => none
  | c :: cs =>
    if c = '\x27' then some ([], cs)
    else if isPlain c then (readRaw cs).map fun (text, rest) => (c :: text, rest)
    else none

/-- Reads a run of quotes within a text of several lines. One or two belong to the text; of
more, the last three close it, with at most two before them. The result is what belongs to the
text, whether it is closed, and the rest. -/
def readQuotes (quote : Char) (cs : List Char) : List Char × Bool × List Char :=
  let count := (cs.takeWhile (· == quote)).length
  if count < 3 then (List.replicate count quote, false, cs.drop count)
  else (List.replicate (min (count - 3) 2) quote, true, cs.drop (min count 5))

/-- Whether a line ends here, up to blanks. -/
def atLineEnd (cs : List Char) : Bool :=
  (dropLineBreak? (skipSpace cs)).isSome

/-- Reads a text of several lines up to the three quotes that close it. -/
def readLines (quote : Char) : (fuel : Nat) → List Char → Option (List Char × List Char)
  | 0, _ => none
  | _ + 1, [] => none
  | fuel + 1, c :: cs =>
    if c = quote then
      match readQuotes quote (c :: cs) with
      | (quotes, true, rest) => some (quotes, rest)
      | (quotes, false, rest) => (readLines quote fuel rest).map fun (text, rest) =>
        (quotes ++ text, rest)
    else if c = '\x5c' ∧ quote = '\x22' then
      -- the break and all blanks up to the next character are dropped
      if atLineEnd cs then
        readLines quote fuel (skipBlankLines cs)
      else do
        let (c, rest) ← readEscape cs
        let (text, rest) ← readLines quote fuel rest
        return (c :: text, rest)
    else
      match dropLineBreak? (c :: cs) with
      | some rest => (readLines quote fuel rest).map fun (text, rest) => ('\n' :: text, rest)
      | none =>
        if isPlain c then
          (readLines quote fuel cs).map fun (text, rest) => (c :: text, rest)
        else
          none

/-- Reads a string on one line, from its opening quote on. -/
def readLineString : List Char → Option (String × List Char)
  | [] => none
  | c :: cs =>
    if c = '\x22' then
      (readBasic (cs.length + 1) cs).map fun (text, rest) => (String.ofList text, rest)
    else if c = '\x27' then
      (readRaw cs).map fun (text, rest) => (String.ofList text, rest)
    else
      none

/-- Reads a string, from its opening quote or quotes on. -/
def readString (cs : List Char) : Option (String × List Char) :=
  let lines (quote : Char) (rest : List Char) :=
    let rest := (dropLineBreak? rest).getD rest
    (readLines quote (rest.length + 1) rest).map fun (text, rest) => (String.ofList text, rest)
  match dropWord? (List.replicate 3 '\x22') cs, dropWord? (List.replicate 3 '\x27') cs with
  | some rest, _ => lines '\x22' rest
  | none, some rest => lines '\x27' rest
  | none, none => readLineString cs

/-! ### Keys -/

/-- Whether a character may stand in a bare key. -/
def isKeyChar (c : Char) : Bool :=
  c.isAlphanum || c == '_' || c == '-'

/-- Reads a key. -/
def readKey (cs : List Char) : Option (String × List Char) :=
  let word := cs.takeWhile isKeyChar
  if word.isEmpty then readLineString cs
  else some (String.ofList word, cs.dropWhile isKeyChar)

/-- How many keys a path may have. -/
def maxKeys : Nat := 79

/-- Reads a path of at most so many keys, with dots between them and blanks around each. -/
def readKeys : (count : Nat) → List Char → Option (List String × List Char)
  | 0, _ => none
  | count + 1, cs => do
    let (key, rest) ← readKey (skipSpace cs)
    match skipSpace rest with
    | '.' :: rest =>
      let (keys, rest) ← readKeys count rest
      return (key :: keys, rest)
    | rest => return ([key], rest)

end RandomSentences.Toml
