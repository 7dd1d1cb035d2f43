import RandomSentences.Files.Path

/-!
# Looking up paths in a tree

A directory with all that is below it is a snapshot: paths are followed in it from component to
component. Of what is above or outside of the directory nothing is known but that the root and
the directories above are directories, so they are taken as empty ones.
-/

namespace RandomSentences

namespace FileNode

/-- How many bytes a name may have. -/
def maxNameLength : Nat := 255

/-- How many bytes a path may have. -/
def maxPathLength : Nat := 4095

/-- Follows components from a node, with the directories above it, the nearest first. -/
def follow (above : List FileNode) (node : FileNode) :
    List PathComponent → Except FileError FileNode
  | [] => .ok node
  | .root :: rest => follow [] (directory []) rest
  | .current :: rest => follow above node rest
  | .above :: rest =>
    match node.entries, above with
    | .error cause, _ => .error cause
    | .ok _, [] => follow [] (directory []) rest
    | .ok _, parent :: above => follow above parent rest
  | .name name :: rest =>
    match node.entries with
    | .error cause => .error cause
    | .ok entries =>
      if maxNameLength < name.length then .error .nameTooLong
      else
        match entries.lookup name with
        | none => .error .notFound
        | some child => follow (node :: above) child rest

/-- Whether a path can only be that of a directory, by its last piece. -/
def namesDirectory (path : FilePath) : Bool :=
  let last := path.pieces.getLast?
  last == some [] || last == some [dot]

/-- What stands at a path below a directory. -/
def find (root : FileNode) (path : FilePath) : Except FileError FileNode :=
  if path.contains 0 then
    .error .zeroInPath
  else if maxPathLength < path.length then
    .error .nameTooLong
  else if path.isEmpty then
    .error .notFound
  else
    match follow [] root path.components with
    | .ok node =>
      if node.kind == .file && namesDirectory path then .error .notADirectory else .ok node
    | .error cause => .error cause

end FileNode

/-- The snapshot of a directory with all that is below it. -/
def Snapshot.ofTree (root : FileNode) : Snapshot :=
  ⟨root.find, 0⟩

end RandomSentences
