import RandomSentences.Grammar.Basic
import RandomSentences.Ron.Reader
import RandomSentences.Text.Utf8

/-!
# Grammar files

A grammar file is a record of the object notation with two fields: the rules, a map from names
to lists of alternatives, and the start symbol, which may be left out. The record may carry the
name `Grammar`, and further fields are passed over. `GrammarText.ofRon` reads such a record and
`GrammarText.write` writes one.

`Grammar.parse` makes a grammar of a file's text and `Grammar.load` of a file.
-/

namespace RandomSentences

/-- What a grammar file says, before the rules are checked. -/
structure GrammarText where
  start : String
  rules : List (String × List String)
  deriving DecidableEq, Repr

/-- Why a text is no grammar file. -/
inductive GrammarTextError where
  | notWellFormed
  | notAGrammar
  | repeatedField (name : String)
  | missingRules
  | startIsNoText
  | rulesAreNoMap
  deriving DecidableEq, Repr

/-- The description of a cause, as shown to a user. -/
def GrammarTextError.description : GrammarTextError → String
  | notWellFormed => "the text is not well formed"
  | notAGrammar => "expected a record named Grammar or without a name"
  | repeatedField name => "the field " ++ name ++ " is given twice"
  | missingRules => "the field rules is missing"
  | startIsNoText => "the field start is no string"
  | rulesAreNoMap => "the field rules is no map from strings to lists of strings"

namespace GrammarText

/-- The values of the fields with a given name. -/
def valuesOf (name : String) (fields : List (String × Ron)) : List Ron :=
  (fields.filter fun field => field.1 == name).map Prod.snd

/-- The alternatives of one rule. -/
def ruleOfEntry? : Ron × Ron → Option (String × List String)
  | (name, alternatives) => do
    return (← name.text?, ← (← alternatives.items?).mapM Ron.text?)

/-- The rules of a map. -/
def rulesOf? (value : Ron) : Option (List (String × List String)) := do
  (← value.entries?).mapM ruleOfEntry?

/-- The start symbol that the fields of a record give. -/
def startOf (fields : List (String × Ron)) : Except GrammarTextError String :=
  match valuesOf "start" fields with
  | [] => .ok Grammar.defaultStart
  | [value] =>
    match value.text? with
    | some start => .ok start
    | none => .error .startIsNoText
  | _ => .error (.repeatedField "start")

/-- Reads a record. -/
def ofRon : Ron → Except GrammarTextError GrammarText
  | .record name fields =>
    if name = none ∨ name = some "Grammar" then
      match startOf fields, valuesOf "rules" fields with
      | .error cause, _ => .error cause
      | .ok _, [] => .error .missingRules
      | .ok start, [value] =>
        match rulesOf? value with
        | some rules => .ok ⟨start, rules⟩
        | none => .error .rulesAreNoMap
      | .ok _, _ => .error (.repeatedField "rules")
    else
      .error .notAGrammar
  -- an empty pair of parentheses is a record without fields, but has no colon to show it
  | .unit none => .error .missingRules
  | _ => .error .notAGrammar

/-- Reads the text of a grammar file. -/
def read (text : String) : Except GrammarTextError GrammarText :=
  match Ron.read text with
  | some value => ofRon value
  | none => .error .notWellFormed

/-- The texts of a list, with commas between them. -/
def separate : List (List Char) → List Char
  | [] => []
  | [text] => text
  | text :: texts => text ++ ',' :: ' ' :: separate texts

/-- One rule as an entry of a map. -/
def writeRule (rule : String × List String) : List Char :=
  Ron.quote rule.1 ++ ':' :: ' ' :: '[' :: separate (rule.2.map Ron.quote) ++ [']']

/-- Writes a record, with the start symbol or without it. -/
def write (start : Option String) (rules : List (String × List String)) : String :=
  let start := match start with
    | some start => "start: ".toList ++ Ron.quote start ++ [',', ' ']
    | none => []
  String.ofList ('(' :: start ++ "rules: ".toList ++
    '\x7b' :: separate (rules.map writeRule) ++ ['\x7d', ')'])

end GrammarText

namespace Grammar

/-- The grammar of a file's text. -/
def parse (text : String) : Except GrammarError Grammar :=
  match GrammarText.read text with
  | .ok grammar => ofRules grammar.start grammar.rules
  | .error cause => .error (.format cause.description)

/-- The grammar of a file. -/
def load (files : Snapshot) (path : FilePath) : Except GrammarError Grammar :=
  match files.readText path with
  | .ok text => parse text
  | .error cause => .error (.file cause)

end Grammar

end RandomSentences
