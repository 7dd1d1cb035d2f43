import RandomSentences.Config.Basic
import RandomSentences.Config.Value
import RandomSentences.Json.Fields
import RandomSentences.Json.Printer

/-!
# Configurations in JSON

A configuration is written as an object of its five fields. When one is read, every field may
be left out and then has its default; the password and the key prefix may also be given as
numbers or truth values, which stand for the texts that they are written as.
-/

namespace RandomSentences

namespace Json

/-- A text, or a truth value or a number as it is written, or nothing for a null value. -/
def scalarText? : Json → Option (Option String)
  | null => some none
  | bool value => some (some (ConfigValue.boolText value))
  | number literal => literal.value?.map fun value => some value.text
  | string text => text.map some
  | _ => none

/-- A field that may be left out. -/
def fieldOr {α : Type} (fallback : α) (decode : Json → Option α) : Option Json → Option α
  | some value => decode value
  | none => some fallback

/-- An optional text. -/
def ofOption : Option String → Json
  | some text => ofString text
  | none => null

/-- An integer between two bounds. -/
def integerWithin? (least greatest : Int) (value : Json) : Option Int :=
  value.integer?.filter fun n => least ≤ n ∧ n ≤ greatest

end Json

namespace StoreConfig

/-- A configuration as a JSON object. -/
def toJson (config : StoreConfig) : Json :=
  .ofMembers [
    ("host", .ofString config.host),
    ("port", .number (.ofNat config.port.toNat)),
    ("password", .ofOption config.password),
    ("db", .number (.ofInt config.db.toInt)),
    ("key_prefix", .ofOption config.keyPrefix)]

/-- The configuration that a JSON value stands for. -/
def ofJson? (value : Json) : Option StoreConfig := do
  match ← value.fields? ["host", "port", "password", "db", "key_prefix"] with
  | [host, port, password, db, keyPrefix] =>
    let host ← Json.fieldOr default.host Json.text? host
    let port ← Json.fieldOr (default.port.toNat : Int)
      (Json.integerWithin? 0 (UInt16.size - 1)) port
    let password ← Json.fieldOr default.password Json.scalarText? password
    let db ← Json.fieldOr default.db.toInt
      (Json.integerWithin? Int64.minValue.toInt Int64.maxValue.toInt) db
    let keyPrefix ← Json.fieldOr default.keyPrefix Json.scalarText? keyPrefix
    return ⟨host, UInt16.ofNat port.toNat, password, Int64.ofInt db, keyPrefix⟩
  | _ => none

end StoreConfig

end RandomSentences
