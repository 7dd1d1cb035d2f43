import RandomSentences.Text.Utf8

/-!
# Files

What stands at a path is a file with its bytes or a directory with its entries, down to the
last one. Either may be closed to reading, and a link may lead nowhere; such a node has the cause
in the place of what would be read.

A run sees files through a *snapshot*, a function from paths to what stands there or to the reason
why nothing does, so loading grammars, word lists and settings are functions of what the files
hold.

Paths and names within a directory are lists of bytes, because a directory may hold names that
are no text.
-/

namespace RandomSentences

/-- Why reading a file or a directory failed. -/
inductive FileError where
  | notFound
  | notADirectory
  | isADirectory
  | nameTooLong
  /-- A zero byte ends every path, so none can hold one. -/
  | zeroInPath
  | notUtf8
  /-- Any other cause, by its description. -/
  | other (description : String)
  deriving DecidableEq, Repr

/-- The description of a cause, as shown to a user. -/
def FileError.message : FileError → String
  | notFound => "No such file or directory (os error 2)"
  | notADirectory => "Not a directory (os error 20)"
  | isADirectory => "Is a directory (os error 21)"
  | nameTooLong => "File name too long (os error 36)"
  | zeroInPath => "file name contained an unexpected NUL byte"
  | notUtf8 => "stream did not contain valid UTF-8"
  | other description => description

/-- The name of an entry of a directory. -/
abbrev FileName := List UInt8

/-- A path, by its bytes. -/
abbrev FilePath := List UInt8

/-- What something is taken for before it is read. -/
inductive FileKind where
  | file
  | directory
  /-- A link that leads nowhere. -/
  | nothing
  deriving DecidableEq, Repr

/-- What stands at a path. -/
inductive FileNode where
  | file (content : List UInt8)
  | directory (entries : List (FileName × FileNode))
  /-- Something that cannot be read. -/
  | unreadable (kind : FileKind) (cause : FileError)

namespace FileNode

mutual

/-- Whether two nodes are the same. -/
def decEq : (a b : FileNode) → Decidable (a = b)
  | file content, file content' => decidable_of_iff (content = content') (by rw [file.injEq])
  | directory entries, directory entries' =>
    have := decEqEntries entries entries'
    decidable_of_iff (entries = entries') (by rw [directory.injEq])
  | unreadable kind cause, unreadable kind' cause' =>
    decidable_of_iff (kind = kind' ∧ cause = cause') (by rw [unreadable.injEq])
  | file _, directory _ | file _, unreadable _ _ | directory _, file _
  | directory _, unreadable _ _ | unreadable _ _, file _ | unreadable _ _, directory _ =>
    isFalse nofun

/-- Whether two directories have the same entries in the same order. -/
def decEqEntries : (as bs : List (FileName × FileNode)) → Decidable (as = bs)
  | [], [] => isTrue rfl
  | [], _ :: _ | _ :: _, [] => isFalse nofun
  | (name, a) :: as, (other, b) :: bs =>
    have := decEq a b
    have := decEqEntries as bs
    decidable_of_iff (name = other ∧ a = b ∧ as = bs) (by simp [and_assoc])

end

instance : DecidableEq FileNode := decEq

/-- What a node is taken for before it is read. -/
def kind : FileNode → FileKind
  | file _ => .file
  | directory _ => .directory
  | unreadable kind _ => kind

/-- The bytes of a file. -/
def bytes : FileNode → Except FileError (List UInt8)
  | file content => .ok content
  | directory _ => .error .isADirectory
  | unreadable _ cause => .error cause

/-- The text of a file. -/
def text (node : FileNode) : Except FileError String := do
  match Utf8.text? (← node.bytes) with
  | some text => return text
  | none => throw .notUtf8

/-- The entries of a directory, in no particular order. -/
def entries : FileNode → Except FileError (List (FileName × FileNode))
  | file _ => .error .notADirectory
  | directory entries => .ok entries
  | unreadable .file _ => .error .notADirectory
  | unreadable _ cause => .error cause

/-- The entries of a directory, of which there are none if it cannot be read. -/
def listing : FileNode → List (FileName × FileNode)
  | directory entries => entries
  | _ => []

end FileNode

/-- The files that a run can see. -/
structure Snapshot where
  /-- What stands at a path. -/
  lookup : FilePath → Except FileError FileNode
  /-- How many directories are above the one that relative paths start from. -/
  depth : Nat

namespace Snapshot

/-- Whether there is a file at a path, readable or not. -/
def hasFile (files : Snapshot) (path : FilePath) : Bool :=
  match files.lookup path with
  | .ok node => node.kind == .file
  | .error _ => false

/-- The text of the file at a path. -/
def readText (files : Snapshot) (path : FilePath) : Except FileError String := do
  (← files.lookup path).text

/-- The entries of the directory at a path. -/
def readDirectory (files : Snapshot) (path : FilePath) :
    Except FileError (List (FileName × FileNode)) := do
  (← files.lookup path).entries

end Snapshot

end RandomSentences
