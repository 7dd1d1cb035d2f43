import RandomSentences.Decimal.Literal
import RandomSentences.Ron.Basic
import RandomSentences.Text.Escape
import RandomSentences.Text.Reading

/-!
# Reading RON

`Ron.read` reads a whole text as one value, after attributes that switch extensions of the
notation on. One of them lets the value of an option stand after its name without parentheses;
the others that are known change nothing for the values of this library. Blanks and comments may
stand between any two tokens, and every list may end with a comma.

The readers of parts return what they read and the rest of the text. From the whole value it is
at most `maxSteps` steps down to any other, and a count that starts at the length of the text
bounds the recursion.
-/

namespace RandomSentences.Ron

open Text (charOfCode? dropWord?)

/-! ### Blanks and comments -/

/-- What a text is within, between tokens. -/
inductive Gap where
  | blank
  | lineComment
  | blockComment (outer : Nat)

/-- The rest of a text after blanks and comments. Comments between slash-star and star-slash
nest and have to end. -/
def skipGap : Gap → List Char → Option (List Char)
  | .blank, '/' :: '/' :: cs => skipGap .lineComment cs
  | .blank, '/' :: '*' :: cs => skipGap (.blockComment 0) cs
  | .blank, '/' :: _ => Option.none
  | .blank, c :: cs =>
    if c = ' ' ∨ c = '\t' ∨ c = '\n' ∨ c = '\r' then skipGap .blank cs else Option.some (c :: cs)
  | .blank, [] => Option.some []
  | .lineComment, c :: cs => skipGap (if c = '\n' then .blank else .lineComment) cs
  | .lineComment, [] => Option.some []
  | .blockComment outer, '/' :: '*' :: cs => skipGap (.blockComment (outer + 1)) cs
  | .blockComment 0, '*' :: '/' :: cs => skipGap .blank cs
  | .blockComment (outer + 1), '*' :: '/' :: cs => skipGap (.blockComment outer) cs
  | .blockComment outer, _ :: cs => skipGap (.blockComment outer) cs
  | .blockComment _, [] => Option.none

/-- The rest of a text after blanks and comments. -/
def skip (cs : List Char) : Option (List Char) :=
  skipGap .blank cs

/-! ### Identifiers -/

/-- Whether a character may start an identifier. -/
def isIdentifierStart (c : Char) : Bool :=
  c.isAlpha || c == '_'

/-- Whether a character may go on within an identifier. -/
def isIdentifierPart (c : Char) : Bool :=
  c.isAlphanum || c == '_'

/-- Whether a character may stand in a raw identifier. -/
def isRawIdentifierPart (c : Char) : Bool :=
  isIdentifierPart c || c == '.' || c == '+' || c == '-'

/-- Reads an identifier that is not raw. It must not be followed by a character that only a raw
identifier may hold. -/
def readPlainIdentifier (cs : List Char) : Option (String × List Char) :=
  let rest := cs.dropWhile isIdentifierPart
  if (rest.head?.map isRawIdentifierPart).getD false then Option.none
  else Option.some (String.ofList (cs.takeWhile isIdentifierPart), rest)

/-- Reads an identifier, which may be raw. What looks like the start of a raw string is no
identifier. -/
def readIdentifier (cs : List Char) : Option (String × List Char) :=
  match cs with
  | [] => Option.none
  | 'r' :: [] => Option.none
  | 'r' :: '\x22' :: _ => Option.none
  | 'r' :: '#' :: rest =>
    if (rest.takeWhile isRawIdentifierPart).isEmpty then Option.none
    else Option.some (String.ofList (rest.takeWhile isRawIdentifierPart),
      rest.dropWhile isRawIdentifierPart)
  | c :: _ => if isIdentifierStart c then readPlainIdentifier cs else Option.none

/-- The rest of a text that starts with a given word, if no identifier goes on there. -/
def dropIdentifier? (word : String) (cs : List Char) : Option (List Char) := do
  let rest ← dropWord? word.toList cs
  if (rest.head?.map isIdentifierPart).getD false then Option.none else return rest

/-! ### Strings and characters -/

/-- Reads hexadecimal digits up to a closing brace, at most `count` of them. -/
def readHexUpTo : (count : Nat) → List Char → Option (List Char × List Char)
  | _, '\x7d' :: cs => Option.some ([], cs)
  | count + 1, c :: cs =>
    if Decimal.isDigitIn 16 c then do
      let (ds, rest) ← readHexUpTo count cs
      return (c :: ds, rest)
    else
      Option.none
  | _, _ => Option.none

/-- Reads an escape after its backslash. -/
def readEscape : List Char → Option (Char × List Char)
  | '\x27' :: cs => Option.some ('\x27', cs)
  | '\x22' :: cs => Option.some ('\x22', cs)
  | '\x5c' :: cs => Option.some ('\x5c', cs)
  | 'n' :: cs => Option.some ('\n', cs)
  | 'r' :: cs => Option.some ('\r', cs)
  | 't' :: cs => Option.some ('\t', cs)
  | '0' :: cs => Option.some ('\x00', cs)
  | 'x' :: a :: b :: cs =>
    if Decimal.isDigitIn 16 a && Decimal.isDigitIn 16 b then
      Option.some (Char.ofNat (Decimal.ofDigits 16 [a, b]), cs)
    else
      Option.none
  | 'u' :: '\x7b' :: cs => do
    let (ds, rest) ← readHexUpTo 6 cs
    if ds.isEmpty then Option.none
    else return (← charOfCode? (Decimal.ofDigits 16 ds), rest)
  | _ => Option.none

/-- Reads a string after its opening quote. -/
def readQuoted : (fuel : Nat) → List Char → Option (List Char × List Char)
  | 0, _ => Option.none
  | _ + 1, [] => Option.none
  | fuel + 1, c :: cs =>
    if c = '\x22' then Option.some ([], cs)
    else if c = '\x5c' then do
      let (c, rest) ← readEscape cs
      let (text, rest) ← readQuoted fuel rest
      return (c :: text, rest)
    else do
      let (text, rest) ← readQuoted fuel cs
      return (c :: text, rest)

/-- Reads a raw string after its opening quote, up to a quote that is followed by as many
number signs as stood in front of it. -/
def readRaw (signs : List Char) : List Char → Option (List Char × List Char)
  | [] => Option.none
  | c :: cs =>
    match dropWord? ('\x22' :: signs) (c :: cs) with
    | Option.some rest => Option.some ([], rest)
    | Option.none => do
      let (text, rest) ← readRaw signs cs
      return (c :: text, rest)

/-- Reads a string of either kind. -/
def readString (cs : List Char) : Option (String × List Char) :=
  match cs with
  | '\x22' :: cs => do
    let (text, rest) ← readQuoted (cs.length + 1) cs
    return (String.ofList text, rest)
  | 'r' :: cs =>
    let signs := cs.takeWhile (· == '#')
    match cs.dropWhile (· == '#') with
    | '\x22' :: cs => do
      let (text, rest) ← readRaw signs cs
      return (String.ofList text, rest)
    | _ => Option.none
  | _ => Option.none

/-- Reads a character after its opening quote. -/
def readChar : List Char → Option (Char × List Char)
  | '\x5c' :: cs => do
    let (c, rest) ← readEscape cs
    match rest with
    | '\x27' :: rest => return (c, rest)
    | _ => Option.none
  | c :: '\x27' :: cs => if c = '\x27' then Option.none else Option.some (c, cs)
  | _ => Option.none

/-! ### Numbers -/

/-- Whether a character may stand in an integer. -/
def isIntegerPart (c : Char) : Bool :=
  Decimal.isDigitIn 16 c || c == '_'

/-- Whether a character may stand in a floating-point number. -/
def isFloatPart (c : Char) : Bool :=
  c.isDigit || c == '.' || c == 'e' || c == 'E' || c == '+' || c == '-' || c == '_'

/-- Whether a number is read as a floating-point number at once, because more of its characters
belong to such a number than to an integer. -/
def looksLikeFloat (cs : List Char) : Bool :=
  let body := Decimal.dropSign cs
  (body.takeWhile isIntegerPart).length < (body.takeWhile isFloatPart).length

/-- The base that the start of an integer gives, and the rest. -/
def integerBase : List Char → Nat × List Char
  | '0' :: 'x' :: cs => (16, cs)
  | '0' :: 'b' :: cs => (2, cs)
  | '0' :: 'o' :: cs => (8, cs)
  | cs => (10, cs)

/-- The rest of a text after an integer of 64 bits. Underscores may stand between its digits
and after them. -/
def dropInteger? (cs : List Char) : Option (List Char) :=
  let signed := cs.head? == Option.some '-' || cs.head? == Option.some '+'
  let (base, body) := integerBase (if signed then cs.drop 1 else cs)
  let text := body.takeWhile isIntegerPart
  let ds := text.filter (· != '_')
  let half := Nat.pow 2 63
  let bound :=
    if cs.head? == Option.some '-' then half + 1 else if signed then half else UInt64.size
  if !text.isEmpty && text.head? != Option.some '_' && ds.all (Decimal.isDigitIn base) &&
      Decimal.ofDigits base ds < bound then
    Option.some (body.dropWhile isIntegerPart)
  else
    Option.none

/-- The rest of a text after a floating-point number. -/
def dropFloat? (cs : List Char) : Option (List Char) :=
  let names := ["inf", "+inf", "-inf", "NaN", "+NaN", "-NaN"]
  match names.findSome? (dropIdentifier? · cs) with
  | Option.some rest => Option.some rest
  | Option.none =>
    if Decimal.isFloatText (cs.takeWhile isFloatPart) then
      Option.some (cs.dropWhile isFloatPart)
    else
      Option.none

/-- Reads a number: an integer if it can be one, else a floating-point number. -/
def readNumber (cs : List Char) : Option (Ron × List Char) := do
  let rest ←
    if looksLikeFloat cs then dropFloat? cs
    else (dropInteger? cs).orElse fun _ => dropFloat? cs
  return (number (cs.take (cs.length - rest.length)), rest)

/-! ### Values -/

/-- How many steps down a value may be. A list, a map, a tuple or a record takes a step, and each
value in it another; the value of an option takes one. -/
def maxSteps : Nat := 128

/-- The steps that are left after one more. -/
def step? : (steps : Nat) → Option Nat
  | 0 => Option.none
  | steps + 1 => Option.some steps

/-- Whether what follows an opening parenthesis is the name of a field and its colon. -/
def startsWithField (cs : List Char) : Bool :=
  match readIdentifier cs with
  | Option.some (_, rest) => (skip rest).bind List.head? == Option.some ':'
  | Option.none => false

/-- Reads a value that is a word or a number, if there is one. -/
def readWord (cs : List Char) : Option (Ron × List Char) :=
  ((dropIdentifier? "true" cs).map (bool true, ·)).orElse fun _ =>
  ((dropIdentifier? "false" cs).map (bool false, ·)).orElse fun _ =>
  ((dropIdentifier? "None" cs).map (none, ·)).orElse fun _ =>
  ((dropWord? ['(', ')'] cs).map (unit Option.none, ·)).orElse fun _ =>
  ["inf", "-inf", "NaN"].findSome? fun word =>
    (dropIdentifier? word cs).map (number word.toList, ·)

variable (implicitSome : Bool)

mutual

/-- Reads a value from which so many steps down are left. -/
def readValue : (fuel steps : Nat) → List Char → Option (Ron × List Char)
  | 0, _, _ => Option.none
  | fuel + 1, steps, cs =>
    -- these words would be names otherwise
    match readWord cs with
    | Option.some result => Option.some result
    | Option.none =>
      match dropIdentifier? "Some" cs with
      | Option.some rest => readSome fuel steps rest
      | Option.none =>
        match readIdentifier cs with
        | Option.some (name, rest) => do
          match ← skip rest with
          | '(' :: rest => readParenthesised fuel steps (Option.some name) rest
          | rest => return (unit (Option.some name), rest)
        | Option.none =>
          match cs with
          | '(' :: rest => readParenthesised fuel steps Option.none rest
          | '[' :: rest => do
            let (items, rest) ← readItems fuel (← step? steps) ']' rest
            return (list items, rest)
          | '\x7b' :: rest => do
            let (entries, rest) ← readEntries fuel (← step? steps) rest
            return (map entries, rest)
          | '\x27' :: rest => (readChar rest).map fun (c, rest) => (char c, rest)
          | c :: _ =>
            if c = '\x22' ∨ c = 'r' then
              (readString cs).map fun (text, rest) => (string text, rest)
            else if c.isDigit ∨ c = '+' ∨ c = '-' ∨ c = '.' then readNumber cs
            else Option.none
          | [] => Option.none

/-- Reads the value of an option after its name, in parentheses unless these are optional. -/
def readSome : (fuel steps : Nat) → List Char → Option (Ron × List Char)
  | 0, _, _ => Option.none
  | fuel + 1, steps, cs => do
    let steps ← step? steps
    match ← skip cs with
    | '(' :: rest =>
      let (value, rest) ← readValue fuel steps (← skip rest)
      match ← skip rest with
      | ')' :: rest => return (some value, rest)
      | ',' :: rest =>
        match ← skip rest with
        | ')' :: rest => return (some value, rest)
        | _ => Option.none
      | _ => Option.none
    | rest =>
      if implicitSome then (readValue fuel steps rest).map fun (value, rest) => (some value, rest)
      else Option.none

/-- Reads a tuple or a record after its opening parenthesis. -/
def readParenthesised : (fuel steps : Nat) → (name : Option String) → List Char →
    Option (Ron × List Char)
  | 0, _, _, _ => Option.none
  | fuel + 1, steps, name, cs => do
    let steps ← step? steps
    if startsWithField (← skip cs) then
      (readFields fuel steps cs).map fun (fields, rest) => (record name fields, rest)
    else
      (readItems fuel steps ')' cs).map fun (items, rest) => (tuple name items, rest)

/-- Reads values and commas up to a closing character. -/
def readItems : (fuel steps : Nat) → (close : Char) → List Char → Option (List Ron × List Char)
  | 0, _, _, _ => Option.none
  | fuel + 1, steps, close, cs => do
    match ← skip cs with
    | [] => Option.none
    | c :: rest =>
      if c = close then return ([], rest)
      let (item, rest) ← readValue fuel (← step? steps) (c :: rest)
      match ← skip rest with
      | [] => Option.none
      | c :: rest =>
        if c = close then return ([item], rest)
        if c = ',' then
          let (items, rest) ← readItems fuel steps close rest
          return (item :: items, rest)
        Option.none

/-- Reads the entries of a map and its closing brace. -/
def readEntries : (fuel steps : Nat) → List Char → Option (List (Ron × Ron) × List Char)
  | 0, _, _ => Option.none
  | fuel + 1, steps, cs => do
    match ← skip cs with
    | '\x7d' :: rest => return ([], rest)
    | cs =>
      let inner ← step? steps
      let (key, rest) ← readValue fuel inner cs
      match ← skip rest with
      | ':' :: rest =>
        let (value, rest) ← readValue fuel inner (← skip rest)
        match ← skip rest with
        | '\x7d' :: rest => return ([(key, value)], rest)
        | ',' :: rest =>
          let (entries, rest) ← readEntries fuel steps rest
          return ((key, value) :: entries, rest)
        | _ => Option.none
      | _ => Option.none

/-- Reads the fields of a record and its closing parenthesis. -/
def readFields : (fuel steps : Nat) → List Char → Option (List (String × Ron) × List Char)
  | 0, _, _ => Option.none
  | fuel + 1, steps, cs => do
    match ← skip cs with
    | ')' :: rest => return ([], rest)
    | cs =>
      let (name, rest) ← readIdentifier cs
      match ← skip rest with
      | ':' :: rest =>
        let (value, rest) ← readValue fuel (← step? steps) (← skip rest)
        match ← skip rest with
        | ')' :: rest => return ([(name, value)], rest)
        | ',' :: rest =>
          let (fields, rest) ← readFields fuel steps rest
          return ((name, value) :: fields, rest)
        | _ => Option.none
      | _ => Option.none

end

/-! ### Attributes and whole texts -/

/-- The extension that makes the parentheses of an option optional. -/
def implicitSomeName : String :=
  "implicit_some"

/-- The extensions that an attribute may switch on. -/
def extensions : List String :=
  [implicitSomeName, "unwrap_newtypes", "unwrap_variant_newtypes"]

/-- The rest of a text that starts with some words, with gaps allowed after each. -/
def dropWords? : List String → List Char → Option (List Char)
  | [], cs => Option.some cs
  | word :: words, cs => do dropWords? words (← skip (← dropWord? word.toList cs))

/-- Reads the names of extensions, with commas between them. -/
def readExtensions : (fuel : Nat) → List Char → Option (List String × List Char)
  | 0, _ => Option.none
  | fuel + 1, cs => do
    let (name, rest) ← readIdentifier cs
    if !extensions.contains name then Option.none
    match ← skip rest with
    | ',' :: rest =>
      let rest ← skip rest
      if (rest.head?.map isIdentifierPart).getD false then
        let (names, rest) ← readExtensions fuel rest
        return (name :: names, rest)
      else
        return ([name], rest)
    | rest =>
      if (rest.head?.map isIdentifierPart).getD false then Option.none else return ([name], rest)

/-- Reads attributes: the names of the extensions that they switch on. -/
def readAttributes : (fuel : Nat) → List Char → Option (List String × List Char)
  | 0, _ => Option.none
  | fuel + 1, cs =>
    match cs with
    | '#' :: _ => do
      let rest ← dropWords? ["#", "!", "[", "enable", "("] cs
      let (names, rest) ← readExtensions (rest.length + 1) rest
      let rest ← dropWords? [")", "]"] rest
      let (later, rest) ← readAttributes fuel rest
      return (names ++ later, rest)
    | _ => Option.some ([], cs)

/-- Reads a whole text as one value. -/
def read (text : String) : Option Ron := do
  let cs ← skip text.toList
  let (names, cs) ← readAttributes (cs.length + 1) cs
  let implicitSome := names.contains implicitSomeName
  let (value, rest) ← readValue implicitSome (4 * cs.length + 4) maxSteps cs
  if (← skip rest).isEmpty then return value else Option.none

end RandomSentences.Ron
