import RandomSentences.CommandLine.Linter
import RandomSentences.CommandLine.Loader
import RandomSentences.CommandLine.Preview

/-!
# The programs

The first argument of the command line names a program, and the others are its own. Here the
files at the program's paths are read, at any depth, together with the environment; what follows
from them is the work of the programs themselves. What cannot be read stays in its place, with the
cause.
-/

namespace RandomSentences

/-- The cause of a failed access to a file. -/
def fileError (cause : IO.Error) : FileError :=
  match cause with
  | .noFileOrDirectory .. => .notFound
  | .inappropriateType .. => .notADirectory
  | .permissionDenied .. => .other "Permission denied (os error 13)"
  | cause => .other (toString cause)

/-- What stands at a path, but for the entries of a directory. -/
def readNode (path : FilePath) : IO FileNode := do
  let place := (← IO.currentDir) / path.display
  if ← place.isDir then
    return .directory []
  let kind := if ← place.pathExists then FileKind.file else .nothing
  try
    return .file (← IO.FS.readBinFile place).toList
  catch cause =>
    return .unreadable kind (fileError cause)

/-- What stands at a path, first with the path itself and then with all those below it. -/
partial def readTree (path : FilePath) : IO (FileNode × List (FilePath × FileNode)) := do
  let place := (← IO.currentDir) / path.display
  match ← readNode path with
  | .directory _ =>
    try
      let mut entries := []
      let mut below := []
      for entry in ← place.readDir do
        let name := FilePath.ofText entry.fileName
        let (node, deeper) ← readTree (path.join name)
        entries := (name, node) :: entries
        below := below ++ deeper
      return (.directory entries, (path, .directory entries) :: below)
    catch cause =>
      let node := FileNode.unreadable .directory (fileError cause)
      return (node, [(path, node)])
  | node => return (node, [(path, node)])

/-- A snapshot of what stands at some paths, and of the files that may be a configuration. -/
def readSnapshot (paths : List FilePath) (config : Option FilePath) : IO Snapshot := do
  let directory := FilePath.ofText (toString (← IO.currentDir))
  let depth := (directory.components.filter (· != .root)).length
  let trees ← paths.mapM fun path => return (← readTree path).2
  -- a configuration is looked for among files only, so no directory is read on its behalf
  let places ← (config.elim [] (FilePath.upwards depth)).mapM fun path =>
    return (path, ← readNode path)
  let known := trees.flatten ++ places
  return ⟨fun path => (known.lookup path).elim (.error .notFound) .ok, depth⟩

/-- The byte between the name of a variable and what it holds. -/
def equalsSign : UInt8 := 0x3D

/-- The variables of the environment of this process. -/
def readEnvironment : IO Environment := do
  let bytes ← IO.FS.readBinFile "/proc/self/environ"
  return (Text.pieces (· == 0) bytes.toList).filterMap fun entry =>
    match entry.dropWhile (· != equalsSign) with
    | [] => none
    | _ :: value => some (Utf8.display (entry.takeWhile (· != equalsSign)), value)

/-- Runs the program with a name on the rest of a command line. -/
def runProgram (program : String) (words : List String) : IO Outcome := do
  match program with
  | "grammar_linter" => return Linter.run (← readSnapshot (Linter.pathsOf words) none) words
  | "preview" =>
    let files ← readSnapshot (Preview.pathsOf words) (Preview.configOf? words)
    let seed ← IO.rand 0 (UInt64.size - 1)
    return Preview.run files (← readEnvironment) (.ofSeed (UInt64.ofNat seed)) words
  | "word_loader" =>
    let files ← readSnapshot (Loader.pathsOf words) (Loader.configOf? words)
    return Loader.run files (← readEnvironment) words
  | _ => return ⟨2, "", unlines ["unknown program: " ++ program]⟩

end RandomSentences

open RandomSentences in
/-- Runs the program that the first argument names. -/
def main (args : List String) : IO UInt32 := do
  let outcome ← match args with
    | program :: words => runProgram program words
    | [] => pure ⟨2, "", unlines ["no program named"]⟩
  IO.print outcome.output
  IO.eprint outcome.errors
  return UInt32.ofNat outcome.code
