import RandomSentences.Files.Basic
import RandomSentences.Text.Pieces

/-!
# Paths

A path is cut at slashes into components. Empty components and dots count for nothing, except
that a slash at the start makes the path absolute and a dot at the start is kept; two dots stand
for the directory above. Paths are ordered by their components, so different spellings of one
path can be equal in this order. A relative path can be tried upwards, from a directory to all
those above it.

The name of a file is cut at its last dot into a stem and an extension. A name without a dot,
or with its only dot in front, has no extension.
-/

namespace RandomSentences

/-- The byte of a slash. -/
def slash : UInt8 := 0x2F

/-- The byte of a dot. -/
def dot : UInt8 := 0x2E

namespace FileName

/-- The stem and the extension of a name. -/
def splitExtension (name : FileName) : FileName × Option FileName :=
  let reversed := name.reverse
  let extension := (reversed.takeWhile (· != dot)).reverse
  match (reversed.dropWhile (· != dot)).drop 1 with
  | [] => (name, none)
  | stem => (stem.reverse, some extension)

/-- The stem of a name. -/
def stem (name : FileName) : FileName :=
  (splitExtension name).1

/-- The extension of a name. -/
def extension? (name : FileName) : Option FileName :=
  (splitExtension name).2

end FileName

/-- A component of a path. -/
inductive PathComponent where
  | root
  | current
  | above
  | name (name : FileName)
  deriving DecidableEq, Repr

namespace FilePath

/-- The path of a text. -/
def ofText (text : String) : FilePath :=
  Utf8.encode text

/-- A path as shown to a user. -/
def display (path : FilePath) : String :=
  Utf8.display path

/-- The pieces of a path between slashes, empty ones included. -/
def pieces (path : FilePath) : List FileName :=
  Text.pieces (· == slash) path

/-- The component that a piece is, unless it counts for nothing. -/
def component? (piece : FileName) : Option PathComponent :=
  if piece = [] ∨ piece = [dot] then none
  else if piece = [dot, dot] then some .above
  else some (.name piece)

/-- Whether a path starts at the root. -/
def isAbsolute (path : FilePath) : Bool :=
  path.head? == some slash

/-- The components of a path. -/
def components (path : FilePath) : List PathComponent :=
  let rest := (pieces path).filterMap component?
  if path.isAbsolute then .root :: rest
  else if (pieces path).head? = some [dot] then .current :: rest
  else rest

/-- The path of an entry of a directory. -/
def join (directory : FilePath) (name : FileName) : FilePath :=
  if directory.isEmpty ∨ directory.getLast? = some slash then directory ++ name
  else directory ++ slash :: name

/-- A path as it is written from a directory some levels below. -/
def fromBelow (path : FilePath) (levels : Nat) : FilePath :=
  (List.replicate levels [dot, dot, slash]).flatten ++ path

/-- The paths at which a file is looked for in a directory with so many others above it, and then
in these, the nearest first. An absolute path is not looked for. -/
def upwards (depth : Nat) (path : FilePath) : List FilePath :=
  if path.isAbsolute then [path] else (List.range (depth + 1)).map path.fromBelow

end FilePath

namespace PathComponent

/-- The place of a component in the order of paths: a root, a dot, two dots, and then names by
their bytes. -/
def rank : PathComponent → List Nat
  | root => [0]
  | current => [1]
  | above => [2]
  | name bytes => 3 :: bytes.map UInt8.toNat

end PathComponent

/-- Whether a path comes before another or is equal to it in the order of paths. -/
def FilePath.precedes (a b : FilePath) : Bool :=
  (compare (a.components.map PathComponent.rank) (b.components.map PathComponent.rank)).isLE

end RandomSentences
