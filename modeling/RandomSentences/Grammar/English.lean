import RandomSentences.Grammar.File

/-!
# The built-in grammar

Simple and compound English sentences over the seven word categories: noun phrases with an
optional adjective, verb phrases with an object, an adverb or neither, an optional
prepositional phrase, and two sentences joined by a conjunction.

The grammar comes as the text of a grammar file. It is built from the rules that this text gives
(`Grammar.parse_englishText`), which are spelled out so that nobody has to read the text again.
-/

namespace RandomSentences.Grammar

/-- The lines of the file with the built-in grammar. -/
def englishLines : List String := [
  "// Simple and compound English sentences.",
  "// `\x7bcategory\x7d` draws a random word from the word bank.",
  "Grammar(",
  "    start: \x22S\x22,",
  "    rules: \x7b",
  "        \x22S\x22: [\x22SimpleSentence\x22, \x22SimpleSentence Conjunction SimpleSentence\x22],",
  "        \x22SimpleSentence\x22: [\x22NP VP\x22, \x22NP VP PP\x22],",
  "        \x22NP\x22: [\x22Det Adj Noun\x22, \x22Det Noun\x22],",
  "        \x22VP\x22: [\x22Verb NP\x22, \x22Verb Adv\x22, \x22Verb\x22],",
  "        \x22PP\x22: [\x22Prep NP\x22],",
  "        \x22Det\x22: [\x22\x7bdeterminers\x7d\x22],",
  "        \x22Noun\x22: [\x22\x7bnouns\x7d\x22],",
  "        \x22Verb\x22: [\x22\x7bverbs\x7d\x22],",
  "        \x22Adj\x22: [\x22\x7badjectives\x7d\x22],",
  "        \x22Adv\x22: [\x22\x7badverbs\x7d\x22],",
  "        \x22Prep\x22: [\x22\x7bprepositions\x7d\x22],",
  "        \x22Conjunction\x22: [\x22\x7bconjunctions\x7d\x22],",
  "    \x7d,",
  ")"]

/-- The text of the file with the built-in grammar. -/
def englishText : String :=
  String.ofList (englishLines.flatMap fun line => line.toList ++ ['\n'])

/-- The rules of the built-in grammar, by name. -/
def englishRules : List (String × List String) := [
  ("S", ["SimpleSentence", "SimpleSentence Conjunction SimpleSentence"]),
  ("SimpleSentence", ["NP VP", "NP VP PP"]),
  ("NP", ["Det Adj Noun", "Det Noun"]),
  ("VP", ["Verb NP", "Verb Adv", "Verb"]),
  ("PP", ["Prep NP"]),
  ("Det", [Category.determiners.placeholder]),
  ("Noun", [Category.nouns.placeholder]),
  ("Verb", [Category.verbs.placeholder]),
  ("Adj", [Category.adjectives.placeholder]),
  ("Adv", [Category.adverbs.placeholder]),
  ("Prep", [Category.prepositions.placeholder]),
  ("Conjunction", [Category.conjunctions.placeholder])]

/-- The result of a computation that succeeds. -/
def resultOf {ε α : Type} : (computation : Except ε α) → computation.isOk = true → α
  | .ok result, _ => result
  | .error _, h => absurd h (by simp [Except.isOk, Except.toBool])

theorem eq_ok_resultOf {ε α : Type} (computation : Except ε α) (h : computation.isOk = true) :
    computation = .ok (resultOf computation h) := by
  cases computation with
  | ok => rfl
  | error => simp [Except.isOk, Except.toBool] at h

theorem eq_ok_of_toOption {ε α : Type} {computation : Except ε α} {result : α}
    (h : computation.toOption = some result) : computation = .ok result := by
  cases computation with
  | ok => exact congrArg _ (Option.some.inj h)
  | error => cases h

theorem read_englishText : GrammarText.read englishText = .ok ⟨defaultStart, englishRules⟩ := by
  refine eq_ok_of_toOption ?_
  -- the characters are put in place of the text first, since a text is costly to take apart
  rw [GrammarText.read, Ron.read, englishText, String.toList_ofList]
  decide +kernel

theorem isOk_english : (ofRules defaultStart englishRules).isOk = true := by
  decide +kernel

/-- The built-in grammar. -/
def english : Grammar :=
  resultOf (ofRules defaultStart englishRules) isOk_english

theorem ofRules_english : ofRules defaultStart englishRules = .ok english :=
  eq_ok_resultOf _ isOk_english

/-- The built-in grammar is the one that is parsed from its text. -/
theorem parse_englishText : parse englishText = .ok english := by
  rw [parse, read_englishText]
  exact ofRules_english

end RandomSentences.Grammar
