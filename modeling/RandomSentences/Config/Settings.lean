import RandomSentences.Config.Variable
import RandomSentences.Text.Utf8
import RandomSentences.Toml.Reader

/-!
# Settings by field

Settings give values to some of the fields of a store's configuration. A document gives a field
the value of the key with its name; all other keys are passed over. The environment gives a
field the value of the variable that is named for it: `Environment.valueFor?` says which
spellings of the name count, and `Settings.ofEnvironment` which of several variables does.

What a variable holds need not be a text. Where it is taken verbatim it counts only if it is one,
and so it does where a port is looked for; elsewhere it is shown as a text first.

`Settings.above` puts settings above others, field by field. Nothing is combined: a field has
the value of the upper settings or else that of the lower ones.
-/

namespace RandomSentences

open Text (dropWord?)

/-- A field of a store's configuration. -/
inductive ConfigField where
  | db
  | host
  | keyPrefix
  | password
  | port
  deriving DecidableEq, Repr

namespace ConfigField

/-- The name of a field in a document. -/
def key : ConfigField → String
  | db => "db"
  | host => "host"
  | keyPrefix => "key_prefix"
  | password => "password"
  | port => "port"

/-- The variable that is named for a field. -/
def variableName : ConfigField → String
  | db => "REDIS_DB"
  | host => "REDIS_HOST"
  | keyPrefix => "REDIS_KEY_PREFIX"
  | password => "REDIS_PASSWORD"
  | port => "REDIS_PORT"

end ConfigField

/-- Values for some of the fields. -/
abbrev Settings := ConfigField → Option ConfigValue

/-- The variables of an environment: their names as texts, and the bytes that they hold. -/
abbrev Environment := List (String × List UInt8)

namespace Environment

/-- What every name of a variable that counts starts with, in any case. -/
def commonStart : String :=
  "redis_"

/-- What a name says after the common start, in lower case. Blanks around the name count for
nothing. -/
def unprefixed? (name : String) : Option (List Char) :=
  dropWord? commonStart.toList ((Text.trim name.toList).map Char.toLower)

/-- The port that a text stands for, if it is nothing but a port between blanks. -/
def plainPort? (text : String) : Option Nat :=
  (Decimal.natural? (Text.trim text.toList)).filter (· < UInt16.size)

/-- Whether bytes are a text other than a port. -/
def isForeignPort (bytes : List UInt8) : Bool :=
  (Utf8.text? bytes).any fun text => (plainPort? text).isNone

/-- Whether the variable for the port, in capitals, holds a text other than a port. An
environment that links services puts addresses there. -/
def hasForeignPort (env : Environment) : Bool :=
  (env.lookup ConfigField.port.variableName).any isForeignPort

/-- Whether a variable is passed over for what its name says after the common start: the texts
that are read verbatim have a way of their own, and no variable for the port counts beside a
foreign one. With a blank after the common start a name is another one. -/
def skips (env : Environment) (key : List Char) : Bool :=
  key == ConfigField.password.key.toList || key == ConfigField.keyPrefix.key.toList ||
    (key == ConfigField.port.key.toList && env.hasForeignPort)

/-- The parts of a variable's name after the common start, if it counts. Points stand between
the parts, and no part is empty. -/
def nameParts? (env : Environment) (name : String) : Option (List (List Char)) := do
  let key ← unprefixed? name
  let parts := Text.pieces (· == '.') (Text.trim key)
  if env.skips key || parts.any List.isEmpty then none else return parts

/-- What a variable says on a field. Its name is that of the field, or else goes on within the
field, which then has parts. -/
def valueFor? (env : Environment) (field : ConfigField) :
    String × List UInt8 → Option ConfigValue
  | (name, bytes) =>
    match env.nameParts? name with
    | some [key] =>
      if key = field.key.toList then some (Variable.value (Utf8.display bytes)) else none
    | some (key :: _) => if key = field.key.toList then some .compound else none
    | _ => none

/-- The text of the variable in capitals, for a field that is read verbatim. -/
def verbatim? (env : Environment) (field : ConfigField) : Option ConfigValue :=
  match field with
  | .keyPrefix | .password => ((env.lookup field.variableName).bind Utf8.text?).map .text
  | _ => none

end Environment

namespace Settings

/-- The settings of a document. -/
def ofDocument (document : TomlEntries) : Settings :=
  fun field => (document.lookup field.key).map ConfigValue.ofToml

/-- The settings of an environment. The password and the key prefix are taken verbatim from the
variables in capitals, if they are there; apart from that, the last variable that says something
on a field gives it its value. -/
def ofEnvironment (env : Environment) : Settings :=
  fun field => (env.verbatim? field).or (env.reverse.findSome? (env.valueFor? field))

/-- Settings above others. -/
def above (upper lower : Settings) : Settings :=
  fun field => (upper field).or (lower field)

end Settings

end RandomSentences
