import RandomSentences.CommandLine.Outcome
import RandomSentences.Files.Path
import RandomSentences.Grammar.File
import RandomSentences.Grammar.Lint

/-!
# The grammar linter

The linter examines grammar files and reports those that cannot be loaded and all warnings
about the others. A path names a file, or a directory of which all that has the extension `ron`
and is no directory itself is examined, at any depth. A path that names nothing ends the run before
anything is examined.

The run fails if a file cannot be loaded, or in strict mode if there is a warning.
-/

namespace RandomSentences

/-- The settings of a run of the linter. -/
structure LinterSettings where
  paths : List FilePath
  strict : Bool

namespace Linter

/-- The usage of the linter. -/
def usage : Usage where
  program := "grammar_linter"
  purpose := "Validate sentence grammar files"
  operands := some ("PATHS", "Grammar files or directories")
  options := [⟨"strict", none, .switch, "Treat warnings as errors"⟩]

/-- The settings that arguments give. Paths are not empty. -/
def settings? (arguments : List Argument) : Option LinterSettings :=
  let paths := Argument.operands arguments
  if paths.all (· != "") then
    some ⟨paths.map FilePath.ofText, 0 < Argument.count arguments "strict"⟩
  else
    none

/-- The settings that a command line gives. At least one path is needed. -/
def parse (words : List String) : Except Stop LinterSettings :=
  usage.parse settings? (fun settings => !settings.paths.isEmpty) words

/-- The paths at which a run reads. -/
def pathsOf (words : List String) : List FilePath :=
  match parse words with
  | .ok settings => settings.paths
  | .error _ => []

/-! ### Which files are examined -/

/-- Whether a name has the extension of grammar files. -/
def isGrammarName (name : FileName) : Bool :=
  name.extension? == some (Utf8.encode "ron")

mutual

/-- The grammar files at an entry of a directory: those of a directory, which are none if it cannot
be read, and whatever else has their extension. -/
def entryFiles (path : FilePath) (name : FileName) : FileNode → List FilePath
  | .directory entries => directoryFiles (path.join name) entries
  | .unreadable .directory _ => []
  | _ => if isGrammarName name then [path.join name] else []

/-- The grammar files of a directory, at any depth. -/
def directoryFiles (path : FilePath) : List (FileName × FileNode) → List FilePath
  | [] => []
  | (name, node) :: entries => entryFiles path name node ++ directoryFiles path entries

end

/-- The files to examine for one path, if it names anything. A directory that cannot be read
counts as an empty one. -/
def filesOf? (files : Snapshot) (path : FilePath) : Option (List FilePath) :=
  match files.lookup path with
  | .error _ => none
  | .ok node =>
    match node.kind with
    | .file => some [path]
    | .directory => some (directoryFiles path node.listing)
    | .nothing => none

/-- The files to examine, in the order of their paths, or the first path that names nothing. -/
def examined (files : Snapshot) (paths : List FilePath) : Except FilePath (List FilePath) :=
  match paths.find? fun path => (filesOf? files path).isNone with
  | some path => .error path
  | none =>
    .ok ((paths.flatMap fun path => (filesOf? files path).getD []).mergeSort FilePath.precedes)

/-! ### The report -/

/-- What came of one file. -/
structure Finding where
  path : FilePath
  result : Except GrammarError Grammar

namespace Finding

/-- A remark about the file. -/
def remark (finding : Finding) (text : String) : String :=
  finding.path.display ++ ": " ++ text

/-- The line for a file that was loaded. -/
def loadedLine? (finding : Finding) : Option String :=
  match finding.result with
  | .ok g => some ("  Loaded: " ++ finding.path.display ++ " (" ++ toString g.size ++
      " rules, start '" ++ g.start ++ "')")
  | .error _ => none

/-- The warnings about a file that was loaded. -/
def warnings (finding : Finding) : List String :=
  match finding.result with
  | .ok g => g.lint.map fun warning => finding.remark warning.message
  | .error _ => []

/-- The error of a file that was not loaded. -/
def error? (finding : Finding) : Option String :=
  match finding.result with
  | .ok _ => none
  | .error cause => some (finding.remark cause.message)

end Finding

/-- Examines a file. -/
def examine (files : Snapshot) (path : FilePath) : Finding :=
  ⟨path, Grammar.load files path⟩

/-- All warnings, one of them for finding nothing to examine. -/
def allWarnings (findings : List Finding) : List String :=
  let warnings := findings.flatMap Finding.warnings
  if findings.isEmpty then warnings ++ ["No .ron grammar files found"] else warnings

/-- All errors. -/
def allErrors (findings : List Finding) : List String :=
  findings.filterMap Finding.error?

/-- Whether a run with some findings fails. -/
def fails (strict : Bool) (findings : List Finding) : Bool :=
  !(allErrors findings).isEmpty || (strict && !(allWarnings findings).isEmpty)

/-- The lines of the report on some findings. -/
def report (findings : List Finding) : List String :=
  let warnings := allWarnings findings
  let errors := allErrors findings
  findings.filterMap Finding.loadedLine? ++
    ["", "=== Grammar Lint Report ===", ""] ++
    (if errors.isEmpty && warnings.isEmpty then ["All checks passed!"] else []) ++
    warnings.map ("WARNING: " ++ ·) ++
    errors.map ("ERROR: " ++ ·) ++
    ["", "Summary: " ++ toString findings.length ++ " files, " ++ toString errors.length ++
      " errors, " ++ toString warnings.length ++ " warnings"]

/-- Runs the linter with given settings. -/
def runWith (files : Snapshot) (settings : LinterSettings) : Outcome :=
  match examined files settings.paths with
  | .error path => ⟨1, "", unlines ["ERROR: Path '" ++ path.display ++ "' does not exist"]⟩
  | .ok paths =>
    let findings := paths.map (examine files)
    ⟨if fails settings.strict findings then 1 else 0, unlines (report findings), ""⟩

/-- Runs the linter on a command line. -/
def run (files : Snapshot) (words : List String) : Outcome :=
  match parse words with
  | .ok settings => runWith files settings
  | .error stop => .ofStop usage stop

end Linter

end RandomSentences
