import RandomSentences.Store.Memory

/-!
# Word banks

A word bank is a copy of the words of categories, taken at one time. It may hold a set for each
category or none; a missing set counts as empty wherever words are asked for, but a bank with
an empty set is not equal to a bank without one.

`WordBank.snapshot` copies all categories out of a store, and `WordBank.toStore` makes a store
in memory of a bank.
-/

namespace RandomSentences

/-- Sets of words for some of the categories. -/
structure WordBank where
  entry? : Category → Option WordSet

namespace WordBank

/-- The bank without any set. -/
def empty : WordBank :=
  ⟨fun _ => none⟩

/-- Puts a set in place of the set of a category. -/
def insert (b : WordBank) (category : Category) (words : WordSet) : WordBank :=
  ⟨fun c => if c = category then some words else b.entry? c⟩

/-- The words of a category. -/
def words (b : WordBank) (category : Category) : WordSet :=
  (b.entry? category).getD ∅

/-- Whether a word is among the words of a category. -/
def contains (b : WordBank) (category : Category) (word : String) : Bool :=
  (b.words category).contains word

/-- The number of words of a category. -/
def size (b : WordBank) (category : Category) : Nat :=
  (b.words category).size

/-- The number of words of all categories together. -/
def total (b : WordBank) : Nat :=
  (Category.all.filterMap b.entry?).foldr (fun words n => words.size + n) 0

/-- The categories without words, in listing order. -/
def emptyCategories (b : WordBank) : List Category :=
  Category.all.filter fun c => b.size c == 0

/-- Banks are equal if they have sets for the same categories, and equal ones. -/
instance : BEq WordBank where
  beq a b := Category.all.all fun c => a.entry? c == b.entry? c

/-- How access to the words of a store is shown in diagnostics, whatever the store holds. -/
def accessText : String :=
  "WordBankAccessor \x7b .. \x7d"

/-- The words of a category in a store, each once. -/
def wordsInCategory {σ : Type} [WordStore σ] (category : Category) : Asking σ WordSet := do
  return Std.ExtTreeSet.ofList (← WordStore.allMembers category.key)

/-- Copies some categories out of a store into a bank. -/
def copyAll {σ : Type} [WordStore σ] (b : WordBank) : List Category → Asking σ WordBank
  | [] => pure b
  | category :: categories => do
    copyAll (b.insert category (← wordsInCategory category)) categories

/-- A copy of all categories of a store. -/
def snapshot {σ : Type} [WordStore σ] : Asking σ WordBank :=
  copyAll empty Category.all

/-- The store in memory with the words of a bank. -/
def toStore (b : WordBank) (source : NumberStream) : MemoryStore :=
  Category.all.foldl (fun s c => s.insert c.key (b.words c).toList) (MemoryStore.empty source)

end WordBank

end RandomSentences
