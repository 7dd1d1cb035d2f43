import RandomSentences.Decimal.Shortest
import RandomSentences.Toml.Basic

/-!
# Values of settings

A setting may come from a file or from a variable of the environment. Either way its value is a
truth value, a number, a text, or something with parts, of which no setting makes use. A
setting that takes a text may take truth values and numbers as well, as they are written.
-/

namespace RandomSentences

/-- The value of a setting. -/
inductive ConfigValue where
  | bool (value : Bool)
  | integer (n : Int)
  | float (x : Decimal.Binary64)
  | text (s : String)
  /-- A list, a table, or a date. -/
  | compound
  deriving DecidableEq, Repr

namespace ConfigValue

/-- The value of a key in a document. -/
def ofToml : Toml → ConfigValue
  | .string s => text s
  | .integer n => integer n
  | .float x => float x
  | .bool value => bool value
  | .date => compound
  | .array _ => compound
  | .table _ _ => compound
  | .tables _ => compound

/-- The text of a truth value. -/
def boolText (value : Bool) : String :=
  if value then "true" else "false"

/-- A text, or how a truth value or a number is written. -/
def scalarText? : ConfigValue → Option String
  | bool value => some (boolText value)
  | integer n => some (Decimal.intText n)
  | float x => some x.text
  | text s => some s
  | compound => none

end ConfigValue

end RandomSentences
