import RandomSentences.Decimal.Digits
import RandomSentences.Text.Quoted

/-!
# The configuration of a remote store

How to reach a store on a server, and what its keys start with. An empty password counts as
none, and so does an empty prefix; a prefix is set apart from the key by a colon. The password
never shows in the description of a configuration.
-/

namespace RandomSentences

/-- How to reach a remote store. -/
structure StoreConfig where
  host : String
  port : UInt16
  password : Option String
  db : Int64
  keyPrefix : Option String
  deriving DecidableEq

namespace StoreConfig

/-- The configuration where nothing is set. -/
def default : StoreConfig :=
  ⟨"127.0.0.1", 6379, none, 0, none⟩

/-- A text that is there and not empty. -/
def nonempty? (text : Option String) : Option String :=
  text.filter fun text => text != ""

/-- The key of a word set on the server. -/
def key (config : StoreConfig) (name : String) : String :=
  match nonempty? config.keyPrefix with
  | some start => start ++ ":" ++ name
  | none => name

/-- The password to log in with, if there is one. -/
def login? (config : StoreConfig) : Option String :=
  nonempty? config.password

/-- The description of an optional value. -/
def describeOption (text : Option String) : String :=
  match text with
  | some text => "Some(" ++ text ++ ")"
  | none => "None"

/-- The description of a configuration, without its password. -/
def describe (config : StoreConfig) : String :=
  String.ofList ("StoreConfig ".toList ++ '\x7b' :: " host: ".toList) ++ Text.quoted config.host ++
    ", port: " ++ toString config.port.toNat ++
    ", password: " ++ describeOption (config.password.map fun _ => Text.quoted "<redacted>") ++
    ", db: " ++ Decimal.intText config.db.toInt ++
    ", key_prefix: " ++ describeOption (config.keyPrefix.map Text.quoted) ++
    String.ofList [' ', '\x7d']

end StoreConfig

end RandomSentences
