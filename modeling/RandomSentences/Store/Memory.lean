import Std.Data.ExtTreeMap
import Std.Data.ExtTreeSet
import RandomSentences.Category
import RandomSentences.Random.Stream
import RandomSentences.Store.Basic

/-!
# Stores in memory

A memory store is a map from keys to sets of words, with a stream of random numbers for its
draws. Words are only ever added. Its answers never fail: all members of a set come in
increasing order, and a draw gives some member of the set, or none exactly if the set is empty.
-/

namespace RandomSentences

/-- A set of words. -/
abbrev WordSet := Std.ExtTreeSet String

/-- Sets of words by key, with a source for draws. -/
structure MemoryStore where
  sets : Std.ExtTreeMap String WordSet
  source : NumberStream

namespace MemoryStore

/-- A store without words. -/
def empty (source : NumberStream) : MemoryStore :=
  ⟨∅, source⟩

/-- A store without words, drawing from the stream of a seed. -/
def seeded (seed : UInt64) : MemoryStore :=
  empty (NumberStream.ofSeed seed)

/-- The set of a key, empty if there is none. -/
def members (s : MemoryStore) (key : String) : WordSet :=
  s.sets.getD key ∅

/-- Adds words to the set of a key. -/
def insert (s : MemoryStore) (key : String) (words : List String) : MemoryStore :=
  { s with sets := s.sets.insert key ((s.members key).insertMany words) }

/-- Adding words to a set puts exactly these words into it, and leaves all other sets alone. -/
theorem mem_members_insert {s : MemoryStore} {key other word : String} {words : List String} :
    word ∈ (s.insert key words).members other ↔
      word ∈ s.members other ∨ key = other ∧ word ∈ words := by
  by_cases h : key = other
  · subst h
    simp [members, insert, Std.ExtTreeMap.getD_insert_self, or_comm]
  · simp [members, insert, Std.ExtTreeMap.getD_insert, h]

/-- Draws a member of the set of a key. -/
def draw (s : MemoryStore) (key : String) : Option String × MemoryStore :=
  let words := (s.members key).toList
  -- nothing is taken from the source for an empty set
  if h : 0 < words.length then
    let (i, source) := ChoiceSource.index s.source words.length h
    (some words[i], { s with source := source })
  else
    (none, s)

instance : WordStore MemoryStore where
  allMembers key := fun s => (.ok (s.members key).toList, s)
  randomMember key := fun s =>
    let (word, s) := s.draw key
    (.ok word, s)

end MemoryStore

end RandomSentences
