import RandomSentences.Category
import RandomSentences.Grammar.Derivation
import RandomSentences.Random.Stream
import RandomSentences.Sentence.Finish
import RandomSentences.Store.Basic

/-!
# Expanding symbols into text

A symbol is expanded in two steps. First a source of choices picks a derivation of it, as in
`Grammar.derive`. Then the derivation is told: its words are drawn from a store, from left to
right, a category without words shows its placeholder, and the parts of a rule are joined by
single spaces. A draw that fails ends the telling at once.

`Grammar.generate` tells the start symbol and finishes the text as a sentence, and
`Grammar.generateSeeded` does so with the stream of a seed.
-/

namespace RandomSentences

/-- Why a sentence could not be generated. -/
inductive GenerateError where
  | store (cause : StoreError)
  | grammar (cause : GrammarError)
  deriving DecidableEq, Repr

/-- The message of a cause, as shown to a user. -/
def GenerateError.message : GenerateError → String
  | store cause => "store error: " ++ cause.message
  | grammar cause => "grammar error: " ++ cause.message

variable {σ : Type} [WordStore σ]

/-- Draws a word of a category, or takes its placeholder if there is none. -/
def drawWord (category : Category) : Asking σ String := do
  match ← WordStore.randomMember category.key with
  | some word => return word
  | none => return category.placeholder

mutual

/-- The text of a derivation, with its words drawn from left to right. -/
def Derivation.tell : Derivation → Asking σ String
  | .word category => drawWord category
  | .literal text => pure text
  | .rule _ _ parts => do return " ".intercalate (← Derivation.tellAll parts)

/-- The texts of some derivations, with their words drawn from left to right. -/
def Derivation.tellAll : List Derivation → Asking σ (List String)
  | [] => pure []
  | part :: parts => do
    let text ← Derivation.tell part
    let texts ← Derivation.tellAll parts
    return text :: texts

end

namespace Grammar

variable {γ : Type} [ChoiceSource γ]

/-- Expands a symbol into a text. -/
def expandSymbol (g : Grammar) (s : Symbol) (source : γ) : Asking σ String :=
  (g.derive s source).tell

/-- Generates a sentence from the start symbol. -/
def generate (g : Grammar) (source : γ) : Asking σ String := do
  return finishSentence (← g.expandSymbol g.startSymbol source)

/-- Generates the sentence of a seed: equal seeds make equal choices. -/
def generateSeeded (g : Grammar) (seed : UInt64) : Asking σ String :=
  g.generate (NumberStream.ofSeed seed)

/-- Expands a token, which may name a category, a rule, or be a literal. -/
def expandToken (g : Grammar) (token : String) (source : γ) :
    ExceptT GenerateError (StateM σ) String :=
  match g.resolveToken token with
  | .error cause => throw (.grammar cause)
  | .ok s => ExceptT.adapt .store (g.expandSymbol s source)

end Grammar

end RandomSentences
