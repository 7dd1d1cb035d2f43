/-!
# Word categories

The seven word classes that a grammar may draw from. A category has a *key*, the lower-case
plural under which its words are stored and by which grammars name it, and a *placeholder*,
the key in braces, which is both the token that asks for such a word in a rule and the text
that stands in a sentence when no word was found.

`Category.ofKey?` reads a key exactly: `ofKey?_eq_some_iff` says that a text names a category
if and only if it is that category's key.
-/

namespace RandomSentences

/-- A class of words that a grammar may draw from. -/
inductive Category where
  | nouns
  | verbs
  | adjectives
  | adverbs
  | determiners
  | prepositions
  | conjunctions
  deriving DecidableEq, Repr

namespace Category

/-- Every category, in the order in which listings show them. -/
def all : List Category :=
  [nouns, verbs, adjectives, adverbs, determiners, prepositions, conjunctions]

/-- The key of a category: the name of its word set and its name in a grammar. -/
def key : Category → String
  | nouns => "nouns"
  | verbs => "verbs"
  | adjectives => "adjectives"
  | adverbs => "adverbs"
  | determiners => "determiners"
  | prepositions => "prepositions"
  | conjunctions => "conjunctions"

/-- The category with a given key. Case and surrounding blanks count. -/
def ofKey? (text : String) : Option Category :=
  all.find? fun c => c.key == text

/-- The key in braces: the token that asks for a word of this category, and the text shown
when there is none. -/
def placeholder (c : Category) : String :=
  String.ofList ('{' :: c.key.toList ++ ['}'])

/-- The place of a category in `Category.all`. -/
def index (c : Category) : Nat :=
  all.idxOf c

/-- The message for a name that is no category's key. -/
def unknownMessage (name : String) : String :=
  "unknown word category: '" ++ name ++ "'"

theorem mem_all (c : Category) : c ∈ all := by
  cases c <;> simp [all]

theorem key_injective {c d : Category} (h : c.key = d.key) : c = d := by
  cases c <;> cases d <;> simp_all [key]

theorem ofKey?_key (c : Category) : ofKey? c.key = some c := by
  cases c <;> decide

/-- A text names a category exactly when it is that category's key. -/
theorem ofKey?_eq_some_iff {text : String} {c : Category} :
    ofKey? text = some c ↔ text = c.key := by
  constructor
  · intro h
    have := List.find?_some h
    exact (beq_iff_eq.1 this).symm
  · rintro rfl
    exact ofKey?_key c

end Category

end RandomSentences
