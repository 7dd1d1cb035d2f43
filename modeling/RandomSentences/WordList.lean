import RandomSentences.Category
import RandomSentences.Files.Path
import RandomSentences.Text.Blank
import RandomSentences.Text.Lines

/-!
# Word lists

A word list is a text with one word on each line. Blanks around a word are dropped, and so are
lines without a word; the words stay in their order, and a word may occur more than once.

A directory of word lists has for each category at most one file, named for the category's key
with the extension `txt`; all other entries are passed over. `wordListFiles` lists these files
in the order of their names.

`WordList.parse_eq_pieces` says that nothing but line feeds matters for where a line ends, since a
carriage return is dropped with the other blanks around a word.
-/

namespace RandomSentences

namespace WordList

/-- The word on a line, unless all of the line is blank. -/
def word? (line : List Char) : Option String :=
  let word := Text.trim line
  if word.isEmpty then none else some (String.ofList word)

/-- The words of a list. -/
def parse (text : String) : List String :=
  (Text.lines text.toList).filterMap word?

theorem word?_append {line blanks : List Char} (h : ∀ c ∈ blanks, Text.isBlank c = true) :
    word? (line ++ blanks) = word? line := by
  have htrim : Text.trim ([] ++ line ++ blanks) = Text.trim line :=
    Text.trim_append_append line (by simp) h
  rw [word?, ← List.nil_append line, htrim, word?, List.nil_append]

theorem word?_of_return {line piece : List Char} (h : piece = line ∨ piece = line ++ ['\r']) :
    word? piece = word? line := by
  rcases h with rfl | rfl
  · rfl
  · refine word?_append fun c hc => ?_
    rw [List.mem_singleton.mp hc]
    decide

theorem filterMap_word?_of_cutAlike {lines pieces : List (List Char)}
    (h : Text.CutAlike lines pieces) : lines.filterMap word? = pieces.filterMap word? := by
  induction h with
  | none => rfl
  | last hpiece => rw [List.filterMap_cons, List.filterMap_cons, word?_of_return hpiece]
  | cons hpiece h ih => rw [List.filterMap_cons, List.filterMap_cons, word?_of_return hpiece, ih]

/-- The words of a list are those between its line feeds. -/
theorem parse_eq_pieces (text : String) :
    parse text = (Text.pieces (· == '\n') text.toList).filterMap word? :=
  filterMap_word?_of_cutAlike (Text.cutAlike_lines text.toList)

/-- A file of a directory of word lists. -/
structure File where
  category : Category
  name : FileName
  node : FileNode
  deriving DecidableEq

/-- The word list that an entry of a directory is, if it is one. -/
def fileOf? : FileName × FileNode → Option File
  | (name, node) =>
    if name.extension? = some (Utf8.encode "txt") then
      match (Utf8.text? name.stem).bind Category.ofKey? with
      | some category => some ⟨category, name, node⟩
      | none => none
    else
      none

/-- The word lists among the entries of a directory, in the order of their names. -/
def ofEntries (entries : List (FileName × FileNode)) : List File :=
  (entries.filterMap fileOf?).mergeSort fun a b => (compare a.name b.name).isLE

/-- The words of a file. -/
def File.words (file : File) : Except FileError (List String) :=
  file.node.text.map parse

end WordList

/-- The word lists of a directory, in the order of their names. -/
def wordListFiles (files : Snapshot) (directory : FilePath) :
    Except FileError (List WordList.File) :=
  (files.readDirectory directory).map WordList.ofEntries

end RandomSentences
