import RandomSentences.Config.Basic
import RandomSentences.Config.Settings
import RandomSentences.Files.Path

/-!
# Loading a configuration

A configuration is put together from the environment, above a file, above the defaults. What
stands below another value is never looked at, so only a value that counts can be of a wrong
type or out of range. Faults are reported for the first field in the order of their names.

The file is looked for in the directory that its path starts from and in those above it. If there
is none it is passed over, and so is a directory in its place; but one that is found must be
readable.
-/

namespace RandomSentences

/-- Why a configuration could not be loaded. -/
inductive ConfigError where
  /-- The file is there but cannot be read or is no document. -/
  | invalidFile
  | wrongType (field : ConfigField)
  | outOfRange (field : ConfigField)
  deriving DecidableEq, Repr

/-- The field that a cause is about. -/
def ConfigError.field? : ConfigError → Option ConfigField
  | invalidFile => none
  | wrongType field => some field
  | outOfRange field => some field

namespace ConfigValue

/-- A text. -/
def toText (field : ConfigField) : ConfigValue → Except ConfigError String
  | text s => .ok s
  | _ => .error (.wrongType field)

/-- A text, or a truth value or a number as it is written. -/
def toScalarText (field : ConfigField) (value : ConfigValue) :
    Except ConfigError (Option String) :=
  match value.scalarText? with
  | some s => .ok (some s)
  | none => .error (.wrongType field)

/-- An integer of 64 bits with a sign. -/
def toInt64 (field : ConfigField) : ConfigValue → Except ConfigError Int64
  | integer n =>
    if Int64.minValue.toInt ≤ n ∧ n ≤ Int64.maxValue.toInt then .ok (Int64.ofInt n)
    else .error (.outOfRange field)
  | _ => .error (.wrongType field)

/-- An integer of 16 bits without a sign. -/
def toUInt16 (field : ConfigField) : ConfigValue → Except ConfigError UInt16
  | integer n =>
    if 0 ≤ n ∧ n < UInt16.size then .ok (UInt16.ofNat n.toNat) else .error (.outOfRange field)
  | _ => .error (.wrongType field)

end ConfigValue

namespace Settings

/-- The value of a field, or its default if there is none. -/
def read {α : Type} (settings : Settings) (field : ConfigField) (fallback : α)
    (decode : ConfigField → ConfigValue → Except ConfigError α) : Except ConfigError α :=
  match settings field with
  | some value => decode field value
  | none => .ok fallback

end Settings

namespace StoreConfig

/-- The configuration with given settings. -/
def ofSettings (settings : Settings) : Except ConfigError StoreConfig := do
  let db ← settings.read .db default.db ConfigValue.toInt64
  let host ← settings.read .host default.host ConfigValue.toText
  let keyPrefix ← settings.read .keyPrefix default.keyPrefix ConfigValue.toScalarText
  let password ← settings.read .password default.password ConfigValue.toScalarText
  let port ← settings.read .port default.port ConfigValue.toUInt16
  return ⟨host, port, password, db, keyPrefix⟩

/-- The document in the nearest file with a path, empty if there is no such file. -/
def readDocument (files : Snapshot) (path : FilePath) : Except ConfigError TomlEntries :=
  match (path.upwards files.depth).find? files.hasFile with
  | none => .ok []
  | some place =>
    match (files.readText place).toOption.bind Toml.read with
    | some document => .ok document
    | none => .error .invalidFile

/-- The configuration that an environment gives above a document. -/
def ofSources (document : TomlEntries) (env : Environment) : Except ConfigError StoreConfig :=
  ofSettings ((Settings.ofEnvironment env).above (Settings.ofDocument document))

/-- Loads the configuration of an environment and of a file, if one is named. -/
def load (files : Snapshot) (path : Option FilePath) (env : Environment) :
    Except ConfigError StoreConfig := do
  let document ← match path with
    | some path => readDocument files path
    | none => pure []
  ofSources document env

end StoreConfig

end RandomSentences
