import RandomSentences.CommandLine.Outcome
import RandomSentences.CommandLine.Values
import RandomSentences.Service.Builder
import RandomSentences.Store.Loading
import RandomSentences.Store.Remote
import RandomSentences.WordBank

/-!
# The preview

The preview generates sentences from grammar files, or from the built-in grammar, with words
from a directory of word lists or from a remote store. It may show first how many words there
are, and it may expand a single symbol in place of whole sentences.

What a run leaves to chance comes from one stream: the draws from word lists without a seed, and
the choices of each sentence.
-/

namespace RandomSentences

/-- The settings of a run of the preview. -/
structure PreviewSettings where
  grammars : List FilePath
  words : FilePath
  remote : Bool
  config : Option FilePath
  count : String
  seed : Option UInt64
  json : Bool
  bank : Bool
  expand : Option String

namespace Preview

/-- The usage of the preview. -/
def usage : Usage where
  program := "preview"
  purpose := "Generate sample sentences"
  operands := none
  options := [
    ⟨"grammar", some 'g', .several, "Grammar file(s); later files override earlier rules"⟩,
    ⟨"words", some 'w', .single,
      "Directory of `<category>.txt` word lists [default: word_data]"⟩,
    ⟨"redis", none, .switch, "Read words from Redis instead of files"⟩,
    ⟨"config", some 'c', .single, "Store configuration file (TOML), used with --redis"⟩,
    ⟨"count", some 'n', .single,
      "Number of sentences, clamped to 1..=20 like a request [default: 5]"⟩,
    ⟨"seed", some 's', .single, "Seed for reproducible rule choices"⟩,
    ⟨"json", none, .switch, "Print the response body as JSON"⟩,
    ⟨"bank", none, .switch, "Print a word bank summary first"⟩,
    ⟨"expand", some 'e', .single, "Expand a single symbol instead of whole sentences"⟩,
    ⟨"verbose", some 'v', .counter, "Verbosity (-v info, -vv debug, -vvv trace)"⟩]

/-- The settings that arguments give. -/
def settings? (arguments : List Argument) : Option PreviewSettings := do
  let words ← Argument.read? arguments "words" (FilePath.ofText "word_data") path?
  let config ← Argument.read? arguments "config" none fun text => (path? text).map some
  let seed ← Argument.read? arguments "seed" none fun text => (seed? text).map some
  let isGiven (long : String) : Bool := 0 < Argument.count arguments long
  return {
    grammars := (Argument.values arguments "grammar").map FilePath.ofText
    words := words
    remote := isGiven "redis"
    config := config
    count := ((Argument.values arguments "count").getLast?).getD "5"
    seed := seed
    json := isGiven "json"
    bank := isGiven "bank"
    expand := (Argument.values arguments "expand").getLast? }

/-- The settings that a command line gives. -/
def parse (words : List String) : Except Stop PreviewSettings :=
  usage.parse settings? (fun _ => true) words

/-- The paths at which a run may read, but for that of its configuration. -/
def pathsOf (words : List String) : List FilePath :=
  match parse words with
  | .ok settings => settings.words :: settings.grammars
  | .error _ => []

/-- The path of the configuration that a run may read. -/
def configOf? (words : List String) : Option FilePath :=
  match parse words with
  | .ok settings => settings.config
  | .error _ => none

/-- A text with blanks before it, up to a width. -/
def alignRight (width : Nat) (text : String) : String :=
  String.ofList (List.replicate (width - text.length) ' ') ++ text

/-- The lines that show how many words there are. -/
def bankLines (bank : WordBank) : List String :=
  (Category.all.map fun c => alignRight 14 c.key ++ ": " ++ toString (bank.size c) ++ " words") ++
  (bank.emptyCategories.map fun c =>
    "warning: '" ++ c.key ++ "' is empty; sentences will show " ++ c.placeholder) ++
  [""]

/-- The lines that show some sentences, numbered. -/
def sentenceLines (sentences : List String) : List String :=
  sentences.zipIdx.map fun (sentence, i) => alignRight 2 (toString (i + 1)) ++ ". " ++ sentence

variable {σ : Type} [WordStore σ]

/-- Shows sentences, after some other lines. -/
def showSentences (settings : PreviewSettings) (service : SentenceService) (chance : NumberStream)
    (lines : List String) : StateM σ Outcome := do
  let response ← service.respond chance.child (some settings.count)
  if settings.json then
    return .success (lines ++ [String.ofList (response.toJson.printPretty 0)])
  else
    match response with
    | .ok batch => return .success (lines ++ sentenceLines batch.sentences)
    | .failed body => return ⟨1, unlines lines, unlines ["error: " ++ body.error]⟩

/-- Shows the expansion of a symbol, after some other lines. -/
def showExpansion (service : SentenceService) (symbol : String) (chance : NumberStream)
    (lines : List String) : StateM σ Outcome := do
  match ← (service.grammar.expandToken symbol (chance.child 0)).run with
  | .ok text => return .success (lines ++ [text])
  | .error cause => return .failure lines cause.message cause.causes

/-- Shows what the settings ask for, after some other lines. -/
def showText (settings : PreviewSettings) (service : SentenceService) (chance : NumberStream)
    (lines : List String) : StateM σ Outcome :=
  match settings.expand with
  | some symbol => showExpansion service symbol chance lines
  | none => showSentences settings service chance lines

/-- Shows all that the settings ask for. -/
def showAll (settings : PreviewSettings) (service : SentenceService) (chance : NumberStream) :
    StateM σ Outcome := do
  if settings.bank then
    match ← (WordBank.snapshot : Asking σ WordBank).run with
    | .ok bank => showText settings service chance (bankLines bank)
    | .error cause => return .failure [] cause.message cause.causes
  else
    showText settings service chance []

/-- Runs the preview with words from some store. -/
def runOn (files : Snapshot) (settings : PreviewSettings) (chance : NumberStream) (store : σ) :
    Outcome :=
  match ServiceBuilder.build ⟨none, settings.grammars, settings.seed, some store⟩ files with
  | .error cause => .failure [] cause.message cause.causes
  | .ok (service, store) => (showAll settings service chance store).1

/-- Runs the preview with given settings. -/
def runWith (files : Snapshot) (env : Environment) (chance : NumberStream)
    (settings : PreviewSettings) : Outcome :=
  if settings.remote then
    match StoreConfig.load files settings.config env with
    | .error cause => .failure [] "loading store configuration" [cause.message]
    | .ok config => runOn files settings chance (RemoteStore.mk config)
  else
    let (draws, chance) := ChoiceSource.split chance
    match MemoryStore.load files settings.words ((settings.seed.map .ofSeed).getD draws) with
    | .error cause =>
      let error := StoreError.file cause
      .failure [] ("loading word lists from '" ++ settings.words.display ++ "'")
        (error.message :: error.causes)
    | .ok store => runOn files settings chance store

/-- Runs the preview on a command line. -/
def run (files : Snapshot) (env : Environment) (chance : NumberStream) (words : List String) :
    Outcome :=
  match parse words with
  | .ok settings => runWith files env chance settings
  | .error stop => .ofStop usage stop

end Preview

end RandomSentences
