import Std.Data.ExtTreeMap
import RandomSentences.Files.Basic
import RandomSentences.Grammar.Symbol

/-!
# Rule maps, and why a set of rules is refused

A rule map assigns to each rule name the list of its alternatives. It comes in two forms: as
`Tokens`, where an alternative is the list of its tokens, and as `Rules`, where the tokens have
been read as symbols. `Tokens.classify` goes from the first to the second and `Rules.tokens`
back; a map has each name once, and of several entries for one name the last counts.

`GrammarError` lists the causes for which a grammar is refused, and `Tokens.fault?` finds the
first fault in the rules taken by themselves: a rule without alternatives, an alternative
without tokens, or a faulty token. Cycles are found elsewhere, among rules without a fault.
-/

namespace RandomSentences

/-- One alternative of a rule, read. -/
abbrev Alternative := List Symbol

/-- Rules as they are read: a name's alternatives, each a list of symbols. -/
abbrev Rules := Std.ExtTreeMap String (List Alternative)

/-- Rules as they are written: a name's alternatives, each a list of tokens. -/
abbrev Tokens := Std.ExtTreeMap String (List (List String))

/-- Why a grammar is refused. -/
inductive GrammarError where
  | unknownCategory (rule name : String)
  | malformedToken (rule token : String)
  | missingStart (start : String)
  | emptyRule (rule : String)
  | emptyAlternative (rule : String) (index : Nat)
  /-- Following references leads along these rule names, the first of which is the last. -/
  | cycle (path : List String)
  | file (cause : FileError)
  /-- The text of a grammar file is not in the file format. -/
  | format (description : String)
  deriving DecidableEq, Repr

/-- The message of a cause, as shown to a user. -/
def GrammarError.message : GrammarError → String
  | unknownCategory rule name =>
    "rule '" ++ rule ++ "' references unknown category '" ++ name ++ "'"
  | malformedToken rule token =>
    "rule '" ++ rule ++ "' contains malformed token '" ++ token ++ "'"
  | missingStart start => "start symbol '" ++ start ++ "' has no rule"
  | emptyRule rule => "rule '" ++ rule ++ "' has no alternatives"
  | emptyAlternative rule index =>
    "rule '" ++ rule ++ "' has an empty alternative at index " ++ toString index
  | cycle path => "grammar contains a cycle: " ++ " -> ".intercalate path
  | file cause => "IO error: " ++ cause.message
  | format description => "RON deserialization error: " ++ description

/-- The fault of a token within a rule, as a cause for refusing the grammar. -/
def TokenFault.inRule (rule token : String) : TokenFault → GrammarError
  | unknownCategory name => .unknownCategory rule name
  | malformed => .malformedToken rule token

/-- The first fault among the tokens of a rule. -/
def tokensFault? (rule : String) (tokens : List String) : Option GrammarError :=
  tokens.findSome? fun token => (tokenFault? token).map (·.inRule rule token)

/-- The first fault of one alternative: a faulty token, or no token at all. -/
def alternativeFault? (rule : String) (index : Nat) (tokens : List String) :
    Option GrammarError :=
  if tokens.isEmpty then some (.emptyAlternative rule index) else tokensFault? rule tokens

/-- The first fault of one rule: no alternative, or the first fault of an alternative. -/
def ruleFault? (rule : String) (alternatives : List (List String)) : Option GrammarError :=
  if alternatives.isEmpty then
    some (.emptyRule rule)
  else
    alternatives.zipIdx.findSome? fun (tokens, index) => alternativeFault? rule index tokens

namespace Tokens

/-- The rules of a list of names and alternatives. Each alternative is cut into tokens at
blanks, and of several entries for one name the last counts. -/
def ofPairs (pairs : List (String × List String)) : Tokens :=
  Std.ExtTreeMap.ofList (pairs.map fun (name, alternatives) => (name, alternatives.map Text.words))

/-- The first fault in the rules, in the order of their names. -/
def fault? (tokens : Tokens) : Option GrammarError :=
  tokens.toList.findSome? fun (name, alternatives) => ruleFault? name alternatives

/-- Reads each token, given the names of all rules. -/
def classify (tokens : Tokens) : Rules :=
  tokens.map fun _ alternatives =>
    alternatives.map fun alternative => alternative.map (Symbol.ofToken tokens.contains)

end Tokens

namespace Rules

/-- Writes each symbol as its token. -/
def tokens (rules : Rules) : Tokens :=
  rules.map fun _ alternatives => alternatives.map fun alternative => alternative.map Symbol.text

/-- The alternatives of a name, none if it has no rule. -/
def alternatives (rules : Rules) (name : String) : List Alternative :=
  rules.getD name []

/-- The rule names that a rule refers to: in the order of its alternatives and symbols, and as
often as they occur. -/
def references (rules : Rules) (name : String) : List String :=
  (rules.alternatives name).flatten.filterMap Symbol.reference?

/-- Every symbol of every rule with the rule's name, in the order of names. -/
def symbols (rules : Rules) : List (String × Symbol) :=
  rules.toList.flatMap fun (name, alternatives) => alternatives.flatten.map fun s => (name, s)

theorem mem_references_iff {rules : Rules} {name next : String} :
    next ∈ rules.references name ↔
      ∃ alternative ∈ rules.alternatives name, Symbol.nonterminal next ∈ alternative := by
  simp only [references, List.mem_filterMap, List.mem_flatten, Symbol.reference?_eq_some_iff]
  constructor
  · rintro ⟨s, ⟨alternative, ha, hs⟩, rfl⟩
    exact ⟨alternative, ha, hs⟩
  · rintro ⟨alternative, ha, hs⟩
    exact ⟨_, ⟨alternative, ha, hs⟩, rfl⟩

/-- The symbols of some rules are those of their alternatives. -/
theorem mem_symbols_iff {rules : Rules} {name : String} {s : Symbol} :
    (name, s) ∈ rules.symbols ↔
      ∃ alternatives, rules[name]? = some alternatives ∧
        ∃ alternative ∈ alternatives, s ∈ alternative := by
  simp only [symbols, List.mem_flatMap, List.mem_map, List.mem_flatten, Prod.exists, Prod.mk.injEq,
    Std.ExtTreeMap.mem_toList_iff_getElem?_eq_some]
  constructor
  · rintro ⟨_, alternatives, hrule, s, ⟨alternative, ha, hs⟩, rfl, rfl⟩
    exact ⟨alternatives, hrule, alternative, ha, hs⟩
  · rintro ⟨alternatives, hrule, alternative, ha, hs⟩
    exact ⟨name, alternatives, hrule, s, ⟨alternative, ha, hs⟩, rfl, rfl⟩

theorem alternatives_eq_nil_of_not_mem {rules : Rules} {name : String} (h : name ∉ rules) :
    rules.alternatives name = [] := by
  simp [alternatives, Std.ExtTreeMap.getD_eq_fallback h]

theorem references_eq_nil_of_not_mem {rules : Rules} {name : String} (h : name ∉ rules) :
    rules.references name = [] := by
  simp [references, alternatives_eq_nil_of_not_mem h]

end Rules

/-! ### Rules without a fault -/

theorem mem_iff_mem_classify {tokens : Tokens} {name : String} :
    name ∈ tokens.classify ↔ name ∈ tokens := by
  simp [Tokens.classify]

theorem getElem?_classify (tokens : Tokens) (name : String) :
    tokens.classify[name]? = tokens[name]?.map fun alternatives =>
      alternatives.map fun alternative => alternative.map (Symbol.ofToken tokens.contains) := by
  simp [Tokens.classify]

theorem ruleFault?_eq_none_iff {rule : String} {alternatives : List (List String)} :
    ruleFault? rule alternatives = none ↔
      alternatives ≠ [] ∧ ∀ alternative ∈ alternatives,
        alternative ≠ [] ∧ ∀ token ∈ alternative, tokenFault? token = none := by
  unfold ruleFault?
  split
  · simp_all
  · rename_i h
    simp only [List.findSome?_eq_none_iff, alternativeFault?, tokensFault?]
    constructor
    · refine fun hall => ⟨by simpa using h, fun alternative ha => ?_⟩
      obtain ⟨i, hi, rfl⟩ := List.mem_iff_getElem.1 ha
      have := hall (alternatives[i], i) (by simp [List.mem_zipIdx_iff_getElem?, hi])
      split at this
      · simp at this
      · rename_i hne
        exact ⟨by simpa using hne, by simpa [List.findSome?_eq_none_iff] using this⟩
    · rintro ⟨-, hall⟩ ⟨alternative, i⟩ ha
      have hmem : alternative ∈ alternatives :=
        List.mem_of_getElem? (List.mem_zipIdx_iff_getElem?.1 ha)
      have := hall alternative hmem
      simp [this.1, List.findSome?_eq_none_iff]
      exact this.2

/-- Rules have no fault exactly when each has an alternative, each alternative has a token and
each token is free of faults. -/
theorem fault?_eq_none_iff {tokens : Tokens} :
    tokens.fault? = none ↔ ∀ (name : String) (alternatives : List (List String)),
      tokens[name]? = some alternatives →
      alternatives ≠ [] ∧ ∀ alternative ∈ alternatives,
        alternative ≠ [] ∧ ∀ token ∈ alternative, tokenFault? token = none := by
  simp only [Tokens.fault?, List.findSome?_eq_none_iff, ruleFault?_eq_none_iff, Prod.forall,
    Std.ExtTreeMap.mem_toList_iff_getElem?_eq_some]

end RandomSentences
