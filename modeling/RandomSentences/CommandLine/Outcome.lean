import RandomSentences.CommandLine.Arguments
import RandomSentences.Config.Load
import RandomSentences.Service.Basic

/-!
# What a program leaves behind

A run of a program ends with an exit code and with what it wrote to its output and to its error
output. A program that fails reports its error and the causes of the error below it, each cause
being the one of the line above.
-/

namespace RandomSentences

/-- The end of a run. -/
structure Outcome where
  code : Nat
  output : String
  errors : String
  deriving DecidableEq, Repr

/-- Some lines as a text. -/
def unlines (lines : List String) : String :=
  String.join (lines.map (· ++ "\n"))

/-! ### Reports of errors -/

/-- A cause after its mark, with blanks before its further lines. -/
def indent (mark : String) (blanks : Nat) (cause : String) : String :=
  let space := List.replicate blanks ' '
  mark ++ String.ofList (cause.toList.flatMap fun c => if c = '\n' then c :: space else [c])

/-- The lines for the causes of an error: numbered if there are several. -/
def causeLines : List String → List String
  | [] => []
  | [cause] => [indent "    " 4 cause]
  | causes => causes.zipIdx.map fun (cause, i) =>
    indent ("    " ++ toString i ++ ": ") 7 cause

/-- The report of an error and its causes. -/
def errorReport (error : String) (causes : List String) : String :=
  let head := "Error: " ++ error
  match causes with
  | [] => unlines [head]
  | causes => unlines (head :: "" :: "Caused by:" :: causeLines causes)

/-- The causes of an error of a store. -/
def StoreError.causes : StoreError → List String
  | unavailable _ => []
  | file cause => [cause.message]

/-- The causes of an error of a grammar. -/
def GrammarError.causes : GrammarError → List String
  | file cause => [cause.message]
  | format description => [description]
  | _ => []

/-- The causes of an error of an expansion. -/
def GenerateError.causes : GenerateError → List String
  | store cause => cause.message :: cause.causes
  | grammar cause => cause.message :: cause.causes

/-- The causes of an error of a service. -/
def ServiceError.causes : ServiceError → List String
  | generate cause => cause.message :: cause.causes
  | grammar cause => cause.message :: cause.causes
  | missingStore => []

/-- The message of an error of a configuration. -/
def ConfigError.message : ConfigError → String
  | invalidFile => "the file is not valid"
  | wrongType field => "the value of " ++ field.key ++ " has a wrong type"
  | outOfRange field => "the value of " ++ field.key ++ " is out of range"

namespace Outcome

/-- A run that went well, with the lines it wrote. -/
def success (lines : List String) : Outcome :=
  ⟨0, unlines lines, ""⟩

/-- A run that failed, with the lines it wrote before. -/
def failure (lines : List String) (error : String) (causes : List String) : Outcome :=
  ⟨1, unlines lines, errorReport error causes⟩

/-- The end of a run whose command line was not read to its end. -/
def ofStop (usage : Usage) : Stop → Outcome
  | .help => success usage.help
  | .invalid => ⟨2, "", unlines usage.help⟩

end Outcome

end RandomSentences
