import RandomSentences.CommandLine.Usage

/-!
# Reading a command line

A command line is read from left to right. A long option follows two hyphens, and its value
follows an equals sign or is the next argument. After one hyphen there may be several short
options, the last of which may be followed by its value, with or without an equals sign. An
argument that looks like an option is never the value of the option before it. After two
hyphens by themselves all arguments are operands.

Reading stops at the first argument that is not accepted and at the option that shows the
usage, whichever comes first; `Usage.parse` also refuses what comes before such a place.
-/

namespace RandomSentences

/-- An argument that was understood. -/
inductive Argument where
  /-- An option, by its long name, and its value if it has one. -/
  | option (long : String) (value : Option String)
  | operand (text : String)
  deriving DecidableEq, Repr

/-- Why a command line was not read to its end. -/
inductive Stop where
  | help
  | invalid
  deriving DecidableEq, Repr

/-- What comes after a word of a command line. -/
inductive Next where
  /-- Any other word. -/
  | any
  /-- The value of an option. -/
  | value (long : String)
  /-- Operands only. -/
  | operands
  /-- Nothing that would be read. -/
  | stop (reason : Stop)
  deriving DecidableEq, Repr

/-- Whether a word looks like options: it starts with a hyphen and goes on. -/
def looksLikeOption : List Char → Bool
  | '-' :: _ :: _ => true
  | _ => false

namespace Usage

/-- Reads what follows a long option's hyphens. -/
def readLong (usage : Usage) (cs : List Char) : List Argument × Next :=
  let name := String.ofList (cs.takeWhile (· != '='))
  match usage.ofLong? name, cs.dropWhile (· != '=') with
  | none, _ => ([], .stop .invalid)
  | some spec, [] =>
    if spec.kind = .help then ([], .stop .help)
    else if spec.kind.hasValue then ([], .value spec.long)
    else ([.option spec.long none], .any)
  | some spec, _ :: value =>
    if spec.kind.hasValue then ([.option spec.long (some (String.ofList value))], .any)
    else ([], .stop .invalid)

/-- Reads what follows the hyphen of short options. -/
def readShort (usage : Usage) : List Char → List Argument × Next
  | [] => ([], .any)
  | c :: cs =>
    match usage.ofShort? c with
    | none => ([], .stop .invalid)
    | some spec =>
      if spec.kind = .help then ([], .stop .help)
      else if spec.kind.hasValue then
        match cs with
        | [] => ([], .value spec.long)
        | '=' :: value => ([.option spec.long (some (String.ofList value))], .any)
        | value => ([.option spec.long (some (String.ofList value))], .any)
      else
        let (arguments, next) := readShort usage cs
        (.option spec.long none :: arguments, next)

/-- Reads one word of a command line. -/
def readWord (usage : Usage) (word : String) : List Argument × Next :=
  match word.toList with
  | ['-', '-'] => ([], .operands)
  | '-' :: '-' :: cs => usage.readLong cs
  | '-' :: c :: cs => usage.readShort (c :: cs)
  | _ => ([.operand word], .any)

/-- Reads the words of a command line, up to its end or to where it stops. -/
def scan (usage : Usage) : (next : Next) → List String → List Argument × Option Stop
  | .stop reason, _ => ([], some reason)
  | .value _, [] => ([], some .invalid)
  | _, [] => ([], none)
  | .operands, word :: words =>
    let (arguments, stop) := usage.scan .operands words
    (.operand word :: arguments, stop)
  | .value long, word :: words =>
    if looksLikeOption word.toList then
      ([], some .invalid)
    else
      let (arguments, stop) := usage.scan .any words
      (.option long (some word) :: arguments, stop)
  | .any, word :: words =>
    let (first, next) := usage.readWord word
    let (arguments, stop) := usage.scan next words
    (first ++ arguments, stop)

end Usage

namespace Argument

/-- The values of an option, in order. -/
def values (arguments : List Argument) (long : String) : List String :=
  arguments.filterMap fun
    | option name value => if name = long then value else none
    | operand _ => none

/-- How often an option is given. -/
def count (arguments : List Argument) (long : String) : Nat :=
  arguments.countP fun
    | option name _ => name == long
    | operand _ => false

/-- The operands, in order. -/
def operands (arguments : List Argument) : List String :=
  arguments.filterMap fun
    | operand text => some text
    | option _ _ => none

end Argument

namespace Usage

/-- Whether no option is given more often than it may be. -/
def noRepetition (usage : Usage) (arguments : List Argument) : Bool :=
  usage.options.all fun spec => spec.kind.isRepeatable || Argument.count arguments spec.long ≤ 1

/-- Whether there are no operands where none may be. -/
def noSurplus (usage : Usage) (arguments : List Argument) : Bool :=
  usage.operands.isSome || (Argument.operands arguments).isEmpty

/-- Reads a command line as settings of some kind. `read` makes settings of arguments, or
refuses a value among them, and `complete` says whether nothing is missing at the end. -/
def parse {α : Type} (usage : Usage) (read : List Argument → Option α) (complete : α → Bool)
    (words : List String) : Except Stop α :=
  let (arguments, stop) := usage.scan .any words
  -- what comes before the place where reading stopped is judged first
  let settings :=
    if usage.noRepetition arguments && usage.noSurplus arguments then read arguments else none
  match settings, stop with
  | none, _ => .error .invalid
  | some _, some reason => .error reason
  | some settings, none => if complete settings then .ok settings else .error .invalid

end Usage

end RandomSentences
