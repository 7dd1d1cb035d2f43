/-!
# The usage of a program

What a program accepts on its command line: options with a long name and perhaps a short one,
and possibly operands. Every program also has an option that shows its usage, which
`Usage.help` spells out.
-/

namespace RandomSentences

/-- How an option may be given. -/
inductive OptionKind where
  /-- Without a value, at most once. -/
  | switch
  /-- Without a value, any number of times. -/
  | counter
  /-- With a value, at most once. -/
  | single
  /-- With a value, any number of times. -/
  | several
  /-- Without a value, to show the usage. -/
  | help
  deriving DecidableEq, Repr

namespace OptionKind

/-- Whether an option has a value. -/
def hasValue : OptionKind → Bool
  | single => true
  | several => true
  | _ => false

/-- Whether an option may be given more than once. -/
def isRepeatable : OptionKind → Bool
  | counter => true
  | several => true
  | _ => false

end OptionKind

/-- An option of a program. -/
structure OptionSpec where
  long : String
  short : Option Char
  kind : OptionKind
  /-- What the option is for. -/
  purpose : String

/-- What a program accepts on its command line. -/
structure Usage where
  program : String
  /-- What the program is for. -/
  purpose : String
  /-- The name and the purpose of the operands, if there may be any. -/
  operands : Option (String × String)
  options : List OptionSpec

/-- The option that shows the usage. -/
def helpOption : OptionSpec :=
  ⟨"help", some 'h', .help, "Print help"⟩

namespace Usage

/-- All options, the one that shows the usage last. -/
def allOptions (usage : Usage) : List OptionSpec :=
  usage.options ++ [helpOption]

/-- The option with a long name. -/
def ofLong? (usage : Usage) (name : String) : Option OptionSpec :=
  usage.allOptions.find? (·.long == name)

/-- The option with a short name. -/
def ofShort? (usage : Usage) (c : Char) : Option OptionSpec :=
  usage.allOptions.find? (·.short == some c)

end Usage

/-! ### Showing the usage -/

namespace OptionSpec

/-- The long name of an option with what comes after it. -/
def longForm (spec : OptionSpec) : String :=
  let name := "--" ++ spec.long
  if spec.kind.hasValue then name ++ " <" ++ spec.long.map Char.toUpper ++ ">"
  else if spec.kind = .counter then name ++ "..."
  else name

/-- The short name of an option, or blanks in its place. -/
def shortForm (spec : OptionSpec) : String :=
  match spec.short with
  | some c => String.ofList ['-', c, ',', ' ']
  | none => "    "

end OptionSpec

namespace Usage

/-- A line with two columns, the first of a given width. -/
def helpLine (width : Nat) (first second : String) : String :=
  "  " ++ first.pushn ' ' (width - first.length) ++ "  " ++ second

/-- How operands are shown. -/
def operandForm (name : String) : String :=
  "<" ++ name ++ ">..."

/-- The lines about operands. -/
def operandLines (usage : Usage) : List String :=
  match usage.operands with
  | some (name, purpose) => ["Arguments:", helpLine 0 (operandForm name) purpose, ""]
  | none => []

/-- The lines about options. -/
def optionLines (usage : Usage) : List String :=
  let width := (usage.allOptions.map fun spec => spec.longForm.length + 4).foldl max 0
  "Options:" :: usage.allOptions.map fun spec =>
    helpLine width (spec.shortForm ++ spec.longForm) spec.purpose

/-- The lines that describe how a program is used. -/
def help (usage : Usage) : List String :=
  let operands := match usage.operands with
    | some (name, _) => " " ++ operandForm name
    | none => ""
  [usage.purpose, "", "Usage: " ++ usage.program ++ " [OPTIONS]" ++ operands, ""] ++
    usage.operandLines ++ usage.optionLines

end Usage

end RandomSentences
