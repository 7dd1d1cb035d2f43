import RandomSentences.Grammar.English
import RandomSentences.Grammar.File
import RandomSentences.Service.Basic

/-!
# Setting up a service

A service needs a store. Its grammar starts from the one provided, else from the first grammar
file, else from the built-in one; every further file is merged into it in turn, so that later
rules take the place of earlier ones.
-/

namespace RandomSentences

/-- What a service is set up from. -/
structure ServiceBuilder (σ : Type) where
  grammar : Option Grammar
  grammarPaths : List FilePath
  seed : Option UInt64
  store : Option σ

namespace ServiceBuilder

variable {σ : Type}

/-- Merges grammar files into a grammar, one after the other. -/
def mergeFiles (files : Snapshot) (g : Grammar) : List FilePath → Except GrammarError Grammar
  | [] => .ok g
  | path :: paths => do
    let h ← Grammar.load files path
    mergeFiles files (← g.merge h) paths

/-- The grammar that the parts of a builder give. -/
def buildGrammar (files : Snapshot) : Option Grammar → List FilePath → Except GrammarError Grammar
  | some g, paths => mergeFiles files g paths
  | none, [] => .ok Grammar.english
  | none, path :: paths => do mergeFiles files (← Grammar.load files path) paths

/-- The service, with its store. -/
def build (builder : ServiceBuilder σ) (files : Snapshot) :
    Except ServiceError (SentenceService × σ) :=
  match builder.store with
  | none => .error .missingStore
  | some store =>
    match buildGrammar files builder.grammar builder.grammarPaths with
    | .error cause => .error (.grammar cause)
    | .ok grammar => .ok (⟨grammar, builder.seed⟩, store)

end ServiceBuilder

end RandomSentences
