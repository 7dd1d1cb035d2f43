import RandomSentences.Category
import RandomSentences.Json.Fields
import RandomSentences.Json.Printer
import RandomSentences.Json.Reader

/-!
# The bodies of responses

A successful request is answered by a batch, the number of its sentences and the sentences
themselves; a failed one by a message. Both are records that are written as JSON objects and
read from JSON as `Json.fields?` describes. Categories are written as their keys.
-/

namespace RandomSentences

/-- The body of a successful response. -/
structure SentenceBatch where
  count : Nat
  sentences : List String
  deriving DecidableEq, Repr

/-- The body of a failed response. -/
structure ErrorBody where
  error : String
  deriving DecidableEq, Repr

namespace SentenceBatch

/-- A batch as a JSON object. -/
def toJson (batch : SentenceBatch) : Json :=
  .ofMembers [
    ("count", .number (.ofNat batch.count)),
    ("sentences", .array (batch.sentences.map .ofString))]

/-- The batch that a JSON value stands for. -/
def ofJson? (value : Json) : Option SentenceBatch := do
  match ← value.fields? ["count", "sentences"] with
  | [some count, some sentences] =>
    let count ← count.integer?
    let sentences ← sentences.items?
    if 0 ≤ count then
      return ⟨count.toNat, ← sentences.mapM Json.text?⟩
    else
      none
  | _ => none

end SentenceBatch

namespace ErrorBody

/-- A failure as a JSON object. -/
def toJson (body : ErrorBody) : Json :=
  .ofMembers [("error", .ofString body.error)]

/-- The failure that a JSON value stands for. -/
def ofJson? (value : Json) : Option ErrorBody := do
  match ← value.fields? ["error"] with
  | [some error] => return ⟨← error.text?⟩
  | _ => none

end ErrorBody

namespace Category

/-- A category as a JSON string. -/
def toJson (c : Category) : Json :=
  .ofString c.key

/-- The category that a JSON value stands for: its key as a string, or an object whose only
member has the key and a null value. -/
def ofJson? (value : Json) : Option Category := do
  ofKey? (← value.name?)

end Category

end RandomSentences
