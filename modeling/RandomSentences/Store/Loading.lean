import RandomSentences.Store.Memory
import RandomSentences.WordList

/-!
# Loading word lists into memory

The words of each word list of a directory are added to the set of its category, file by file.
A file that cannot be read ends the loading, and the words of the files before it stay.
-/

namespace RandomSentences.MemoryStore

/-- Adds the words of some files, up to the first that cannot be read. -/
def addFiles (s : MemoryStore) : List WordList.File → Except FileError Unit × MemoryStore
  | [] => (.ok (), s)
  | file :: files =>
    match file.words with
    | .ok words => addFiles (s.insert file.category.key words) files
    | .error cause => (.error cause, s)

/-- Adds the word lists of a directory. The result is the number of files. -/
def extend (s : MemoryStore) (files : Snapshot) (directory : FilePath) :
    Except FileError Nat × MemoryStore :=
  match wordListFiles files directory with
  | .error cause => (.error cause, s)
  | .ok lists =>
    match s.addFiles lists with
    | (.ok (), s) => (.ok lists.length, s)
    | (.error cause, s) => (.error cause, s)

/-- The store with the word lists of a directory. -/
def load (files : Snapshot) (directory : FilePath) (source : NumberStream) :
    Except FileError MemoryStore :=
  match (empty source).extend files directory with
  | (.ok _, s) => .ok s
  | (.error cause, _) => .error cause

end RandomSentences.MemoryStore
