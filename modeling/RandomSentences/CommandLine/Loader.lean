import RandomSentences.CommandLine.Outcome
import RandomSentences.CommandLine.Values
import RandomSentences.Store.Remote
import RandomSentences.WordList

/-!
# The word loader

The loader sends the word lists of a directory to a remote store, one after the other, and may
clear each set before. It ends at the first list that cannot be read or sent; the lists before
it stay sent.
-/

namespace RandomSentences

/-- The settings of a run of the loader. -/
structure LoaderSettings where
  input : FilePath
  config : Option FilePath
  replace : Bool

namespace Loader

/-- The usage of the loader. -/
def usage : Usage where
  program := "word_loader"
  purpose := "Upload word lists into the word store"
  operands := none
  options := [
    ⟨"input", some 'i', .single,
      "Directory of `<category>.txt` word lists [default: word_data]"⟩,
    ⟨"config", some 'c', .single, "Store configuration file (TOML)"⟩,
    ⟨"replace", none, .switch, "Delete each set before uploading"⟩,
    ⟨"verbose", some 'v', .counter, "Verbosity (-v info, -vv debug, -vvv trace)"⟩]

/-- The settings that arguments give. -/
def settings? (arguments : List Argument) : Option LoaderSettings := do
  let input ← Argument.read? arguments "input" (FilePath.ofText "word_data") path?
  let config ← Argument.read? arguments "config" none fun text => (path? text).map some
  return ⟨input, config, 0 < Argument.count arguments "replace"⟩

/-- The settings that a command line gives. -/
def parse (words : List String) : Except Stop LoaderSettings :=
  usage.parse settings? (fun _ => true) words

/-- The paths at which a run reads, but for that of its configuration. -/
def pathsOf (words : List String) : List FilePath :=
  match parse words with
  | .ok settings => [settings.input]
  | .error _ => []

/-- The path of the configuration that a run reads. -/
def configOf? (words : List String) : Option FilePath :=
  match parse words with
  | .ok settings => settings.config
  | .error _ => none

/-- Sends one word list. The result is the number of its words and how many of them are new. -/
def send (store : RemoteStore) (replace : Bool) (file : WordList.File) :
    Except StoreError (Nat × Nat) := do
  let words ← (file.words).mapError .file
  if replace then
    let _ ← store.clear file.category.key
  return (words.length, ← store.addWords file.category.key words)

/-- The line for a word list that was sent. -/
def sentLine (file : WordList.File) (total new : Nat) : String :=
  "Uploaded " ++ toString total ++ " words to category: " ++ file.category.key ++ " (" ++
    toString new ++ " new)"

/-- Sends word lists, after the lines for those already sent. -/
def sendAll (store : RemoteStore) (replace : Bool) (lines : List String) :
    List WordList.File → Outcome
  | [] => .success lines
  | file :: files =>
    match send store replace file with
    | .ok (total, new) => sendAll store replace (lines ++ [sentLine file total new]) files
    | .error cause => .failure lines cause.message cause.causes

/-- Runs the loader with given settings. -/
def runWith (files : Snapshot) (env : Environment) (settings : LoaderSettings) : Outcome :=
  match StoreConfig.load files settings.config env with
  | .error cause => .failure [] "loading store configuration" [cause.message]
  | .ok config =>
    match wordListFiles files settings.input with
    | .ok lists => sendAll ⟨config⟩ settings.replace [] lists
    | .error cause =>
      let error := StoreError.file cause
      .failure [] ("reading '" ++ settings.input.display ++ "'") (error.message :: error.causes)

/-- Runs the loader on a command line. -/
def run (files : Snapshot) (env : Environment) (words : List String) : Outcome :=
  match parse words with
  | .ok settings => runWith files env settings
  | .error stop => .ofStop usage stop

end Loader

end RandomSentences
