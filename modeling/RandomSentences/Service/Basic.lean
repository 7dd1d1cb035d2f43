import RandomSentences.Sentence.Expansion
import RandomSentences.Service.Body
import RandomSentences.Service.Count

/-!
# The sentence service

A service generates batches of sentences from a grammar. With a seed, the sentences of a batch
have the seeds at a fixed distance from each other, starting from the service's; without one,
each sentence has a source of choices of its own. A batch is all or nothing: the first sentence
that fails fails the batch, and none is generated after it.

`SentenceService.respond` answers a request. However a batch fails, the response is the same:
the cause is not shown to clients.
-/

namespace RandomSentences

/-- Why a service could not be set up, or a batch not be generated. -/
inductive ServiceError where
  | generate (cause : GenerateError)
  | grammar (cause : GrammarError)
  | missingStore
  deriving DecidableEq, Repr

/-- The message of a cause, as shown to a user. -/
def ServiceError.message : ServiceError → String
  | generate cause => "generation error: " ++ cause.message
  | grammar cause => "grammar error: " ++ cause.message
  | missingStore => "no word store configured"

/-- The distance between the seeds of successive sentences of a batch. -/
def seedStride : UInt64 := 1000

/-- The message that clients get for every batch that failed. -/
def failureMessage : String := "Failed to generate sentence"

/-- The response to a request. -/
inductive SentenceResponse where
  | ok (batch : SentenceBatch)
  | failed (body : ErrorBody)
  deriving DecidableEq, Repr

namespace SentenceResponse

/-- The status code of a response. -/
def status : SentenceResponse → Nat
  | ok _ => 200
  | failed _ => 500

/-- The body of a response as JSON. -/
def toJson : SentenceResponse → Json
  | ok batch => batch.toJson
  | failed body => body.toJson

end SentenceResponse

/-- A grammar to generate sentences from, and the seed of its batches if there is one. -/
structure SentenceService where
  grammar : Grammar
  seed : Option UInt64

namespace SentenceService

variable {σ γ : Type} [WordStore σ] [ChoiceSource γ]

/-- Generates the sentence of a batch at some index. Without a seed of the service, its choices
come from the source given for this index. -/
def sentence (service : SentenceService) (sources : Nat → γ) (index : Nat) : Asking σ String :=
  match service.seed with
  | some seed => service.grammar.generateSeeded (seed + UInt64.ofNat index * seedStride)
  | none => service.grammar.generate (sources index)

/-- Generates a batch of sentences, in the order of their indices. -/
def generateMany (service : SentenceService) (sources : Nat → γ) (count : SentenceCount) :
    Asking σ (List String) :=
  (List.range count.value).mapM fun index => service.sentence sources index

/-- Answers a request for a number of sentences, given as a text or not at all. -/
def respond (service : SentenceService) (sources : Nat → γ) (raw : Option String) :
    StateM σ SentenceResponse := do
  let count := SentenceCount.parse raw
  match ← (service.generateMany sources count).run with
  | .ok sentences => return .ok ⟨count.value, sentences⟩
  | .error _ => return .failed ⟨failureMessage⟩

end SentenceService

end RandomSentences
