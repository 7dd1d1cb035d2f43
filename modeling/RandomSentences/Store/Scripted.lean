import RandomSentences.Store.Basic

/-!
# A store that follows a script

For trying out whatever asks a store, a script fixes every answer in advance: the words of each
key, which are given out in turn and then from the start again, and the questions that fail, by
their number or by their key.
-/

namespace RandomSentences

/-- What a scripted store holds and which questions it fails. -/
structure Script where
  /-- The words of each key, in the order in which they are given out. -/
  words : List (String × List String)
  /-- The number of a question that fails, counted from one. -/
  failOn : Option Nat
  /-- The keys for which every question fails. -/
  failKeys : List String
  /-- The failure. -/
  failure : StoreError

/-- A script, and how far it has been followed. -/
structure ScriptedStore where
  script : Script
  /-- How many questions were asked. -/
  questions : Nat
  /-- The keys of the words given out so far. -/
  given : List String

namespace ScriptedStore

/-- A script that was not yet followed. -/
def ofScript (script : Script) : ScriptedStore :=
  ⟨script, 0, []⟩

/-- The words of a key. -/
def wordsOf (s : ScriptedStore) (key : String) : List String :=
  (s.script.words.lookup key).getD []

/-- Counts a question about a key, which fails if the script says so. -/
def count (key : String) : Asking ScriptedStore Unit :=
  fun s =>
    let s := { s with questions := s.questions + 1 }
    if s.script.failOn = some s.questions ∨ key ∈ s.script.failKeys then
      (.error s.script.failure, s)
    else
      (.ok (), s)

/-- The next word of a key, after as many words as were given out for it. -/
def give (key : String) : Asking ScriptedStore (Option String) :=
  fun s =>
    match s.wordsOf key with
    | [] => (.ok none, s)
    | word :: words =>
      let turn := s.given.count key % (word :: words).length
      (.ok (word :: words)[turn]?, { s with given := key :: s.given })

instance : WordStore ScriptedStore where
  allMembers key := do
    count key
    return (← get).wordsOf key
  randomMember key := do
    count key
    give key

end ScriptedStore

end RandomSentences
