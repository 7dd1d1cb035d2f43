import RandomSentences.Files.Basic

/-!
# Word stores

A word store holds one set of words for each key. It is asked for all members of a set or for
some member of it, and either question may fail. Answering may change the store, if only to
move its random source on, so a question is a function from the store to an answer and a store;
the new store is kept after a failure too, as a store may count or record what it was asked.

`Logged` puts a record of all questions beside a store, without changing its answers.
-/

namespace RandomSentences

/-- Why a store did not answer. -/
inductive StoreError where
  | unavailable (reason : String)
  | file (cause : FileError)
  deriving DecidableEq, Repr

/-- The message of a cause, as shown to a user. -/
def StoreError.message : StoreError → String
  | unavailable reason => "word store unavailable: " ++ reason
  | file cause => "IO error: " ++ cause.message

/-- A computation that asks a store of type `σ`. -/
abbrev Asking (σ α : Type) := ExceptT StoreError (StateM σ) α

namespace Asking

variable {σ α β : Type} {question : Asking σ α} {store after : σ}

theorem bind_of_ok {a : α} (next : α → Asking σ β) (h : question store = (.ok a, after)) :
    (question >>= next) store = next a after := by
  simp [bind, ExceptT.bind, ExceptT.mk, ExceptT.bindCont, StateT.bind, h]

theorem bind_of_error {cause : StoreError} (next : α → Asking σ β)
    (h : question store = (.error cause, after)) :
    (question >>= next) store = (.error cause, after) := by
  simp only [bind, ExceptT.bind, ExceptT.mk, ExceptT.bindCont, StateT.bind, h]
  rfl

theorem map_of_ok {a : α} (f : α → β) (h : question store = (.ok a, after)) :
    (f <$> question) store = (.ok (f a), after) := by
  rw [map_eq_pure_bind, bind_of_ok _ h]
  rfl

theorem map_of_error {cause : StoreError} (f : α → β)
    (h : question store = (.error cause, after)) :
    (f <$> question) store = (.error cause, after) := by
  rw [map_eq_pure_bind, bind_of_error _ h]

end Asking

/-- A store with one set of words for each key. -/
class WordStore (σ : Type) where
  /-- All members of a set. A missing set is empty. -/
  allMembers (key : String) : Asking σ (List String)
  /-- Some member of a set, or none if it is empty. -/
  randomMember (key : String) : Asking σ (Option String)

/-- A question to a store. -/
inductive Question where
  | all (key : String)
  | random (key : String)
  deriving DecidableEq, Repr

/-- A store with the questions it was asked, the latest first. -/
structure Logged (σ : Type) where
  store : σ
  asked : List Question

namespace Logged

/-- Records a question and passes it on. -/
def ask {σ α : Type} (question : Question) (answer : Asking σ α) : Asking (Logged σ) α :=
  fun s =>
    let (result, store) := answer s.store
    (result, ⟨store, question :: s.asked⟩)

/-- The questions in the order in which they were asked. -/
def history {σ : Type} (s : Logged σ) : List Question :=
  s.asked.reverse

instance {σ : Type} [WordStore σ] : WordStore (Logged σ) where
  allMembers key := ask (.all key) (WordStore.allMembers key)
  randomMember key := ask (.random key) (WordStore.randomMember key)

end Logged

end RandomSentences
