import RandomSentences.Toml.Scalar
import RandomSentences.Toml.Text

/-!
# Reading TOML

A document is read in two steps. `Toml.readStatements` reads its text as a list of statements:
headers of tables, headers in double brackets, and keys with values. `Toml.ofStatements` then
builds the document, statement by statement; a statement that would give something a second
time, or add to what is complete, makes the whole document invalid.

A text may start with a byte order mark. Every statement ends with its line, and a line may end
in a comment.
-/

namespace RandomSentences.Toml

open Text (dropWord?)

/-! ### Values -/

/-- The rest of a text after a comment, if there is one. -/
def skipComment : List Char → List Char
  | '#' :: cs => cs.dropWhile isPlain
  | cs => cs

/-- The rest of a text after the blanks, line breaks and comments between the values of an
array. -/
def skipGap : (fuel : Nat) → List Char → List Char
  | 0, cs => cs
  | fuel + 1, cs =>
    match skipBlankLines cs with
    | '#' :: rest => skipGap fuel (rest.dropWhile isPlain)
    | rest => rest

/-- The table of the keys and values between braces. -/
def ofMembers (members : List (List String × Toml)) : Option Toml := do
  let entries ← members.foldlM
    (fun entries (keys, value) => do
      TomlEntries.add keys.dropLast (← keys.getLast?) value .inline entries)
    []
  return table .inline entries

/-- How deep arrays and tables between braces may be nested. -/
def maxDepth : Nat := 79

mutual

/-- Reads a value that may be nested `depth` deep. -/
def readValue : (fuel depth : Nat) → List Char → Option (Toml × List Char)
  | 0, _, _ => none
  | _ + 1, _, [] => none
  | fuel + 1, depth, c :: cs =>
    if c = '\x22' ∨ c = '\x27' then
      (readString (c :: cs)).map fun (text, rest) => (string text, rest)
    else if c = '[' then
      match depth with
      | 0 => none
      | depth + 1 => (readItems fuel depth cs).map fun (items, rest) => (array items, rest)
    else if c = '{' then
      match depth with
      | 0 => none
      | depth + 1 => do
        let (members, rest) ←
          match skipSpace cs with
          | '}' :: rest => pure ([], rest)
          | _ => readMembers fuel depth cs
        return (← ofMembers members, rest)
    else if c = 't' then (dropWord? "rue".toList cs).map (bool true, ·)
    else if c = 'f' then (dropWord? "alse".toList cs).map (bool false, ·)
    else if c = 'i' ∨ c = 'n' then
      (readNamedFloat false (c :: cs)).map fun (x, rest) => (float x, rest)
    else readScalar (c :: cs)

/-- Reads the values of an array and its closing bracket. A comma may follow the last value. -/
def readItems : (fuel depth : Nat) → List Char → Option (List Toml × List Char)
  | 0, _, _ => none
  | fuel + 1, depth, cs =>
    match skipGap (cs.length + 1) cs with
    | ']' :: rest => some ([], rest)
    | cs => do
      let (item, rest) ← readValue fuel depth cs
      match skipGap (rest.length + 1) rest with
      | ']' :: rest => return ([item], rest)
      | ',' :: rest =>
        let (items, rest) ← readItems fuel depth rest
        return (item :: items, rest)
      | _ => none

/-- Reads at least one key with its value, and the closing brace. -/
def readMembers : (fuel depth : Nat) → List Char →
    Option (List (List String × Toml) × List Char)
  | 0, _, _ => none
  | fuel + 1, depth, cs => do
    let (keys, rest) ← readKeys maxKeys cs
    match rest with
    | '=' :: rest =>
      let (value, rest) ← readValue fuel depth (skipSpace rest)
      match skipSpace rest with
      | '}' :: rest => return ([(keys, value)], rest)
      | ',' :: rest =>
        let (members, rest) ← readMembers fuel depth rest
        return ((keys, value) :: members, rest)
      | _ => none
    | _ => none

end

/-! ### Statements -/

/-- What a line of a document says. -/
inductive Statement where
  /-- The header of a table. -/
  | header (path : List String)
  /-- The header of one more table under a key. -/
  | element (path : List String)
  /-- A key, the last one of a path, with its value. -/
  | entry (path : List String) (value : Toml)
  deriving Repr

/-- The rest of a text after what may follow a statement on its line. -/
def dropLineRest? (cs : List Char) : Option (List Char) :=
  match skipComment (skipSpace cs) with
  | [] => some []
  | rest => dropLineBreak? rest

/-- Reads a statement, if the line has one, and the rest of its line. -/
def readStatement (cs : List Char) : Option (List Statement × List Char) :=
  match skipSpace cs with
  -- no blank may stand between the two brackets
  | '[' :: '[' :: rest => do
    let (path, rest) ← readKeys maxKeys rest
    return ([.element path], ← dropLineRest? (← dropWord? [']', ']'] rest))
  | '[' :: rest => do
    let (path, rest) ← readKeys maxKeys rest
    return ([.header path], ← dropLineRest? (← dropWord? [']'] rest))
  | cs =>
    match dropLineRest? cs with
    | some rest => some ([], rest)
    | none => do
      let (path, rest) ← readKeys maxKeys cs
      let rest ← dropWord? ['='] rest
      let (value, rest) ← readValue (2 * rest.length + 2) maxDepth (skipSpace rest)
      return ([.entry path value], ← dropLineRest? rest)

/-- Reads the statements of a document. -/
def readStatements : (fuel : Nat) → List Char → Option (List Statement)
  | _, [] => some []
  | 0, _ :: _ => none
  | fuel + 1, c :: cs => do
    let (statements, rest) ← readStatement (c :: cs)
    return statements ++ (← readStatements fuel rest)

/-! ### Documents -/

/-- A document under construction: its entries, and the path of the table that keys are added
to. -/
structure Draft where
  entries : TomlEntries
  current : List String

/-- Changes the last key's place in the table at the path before it. -/
def Draft.alterLast (draft : Draft) (path : List String)
    (change : String → TableOrigin → TomlEntries → Option TomlEntries) : Option Draft := do
  let entries ←
    TomlEntries.alter false (change (← path.getLast?)) path.dropLast .header draft.entries
  return ⟨entries, path⟩

/-- Adds a statement to a document. -/
def Draft.push (draft : Draft) : Statement → Option Draft
  | .header path => draft.alterLast path TomlEntries.addHeader
  | .element path => draft.alterLast path TomlEntries.addElement
  | .entry path value => do
    let key ← path.getLast?
    let entries ←
      TomlEntries.alter false (TomlEntries.add path.dropLast key value) draft.current .header
        draft.entries
    return ⟨entries, draft.current⟩

/-- The document of some statements. -/
def ofStatements (statements : List Statement) : Option TomlEntries :=
  (statements.foldlM Draft.push ⟨[], []⟩).map Draft.entries

/-- The text without a byte order mark at its start. -/
def dropMark (cs : List Char) : List Char :=
  match cs with
  | c :: rest => if c = '\uFEFF' then rest else cs
  | [] => []

/-- Reads a whole text as a document. -/
def read (text : String) : Option TomlEntries := do
  let cs := dropMark text.toList
  ofStatements (← readStatements (cs.length + 1) cs)

end RandomSentences.Toml
