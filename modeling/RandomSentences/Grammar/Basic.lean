import RandomSentences.Grammar.Cycle

/-!
# Grammars

A grammar has a start symbol and rules, and is *well formed*: the start has a rule, every rule
has an alternative and every alternative a symbol, every symbol is the one that its own token
is read as, and references never lead in a circle. These are fields of the structure, so that
expanding a grammar needs no check and always ends.

`Grammar.ofTokens` builds a grammar from rules as they are written, or says why there is none:
the start is looked up first, then the rules are checked one by one, and cycles are looked for
last. `Grammar.ofRules` first cuts alternatives into tokens, and `Grammar.merge` writes the
rules of two grammars as tokens again, lets the second one's rules take the place of the first
one's, and reads the whole anew, because a word of the one may be the name of a rule of the
other.
-/

namespace RandomSentences

/-- Whether rules are complete and each symbol of theirs is the one its token stands for. -/
structure Rules.WellFormed (rules : Rules) : Prop where
  /-- Every rule has an alternative. -/
  ne_nil : ∀ (name : String) (alternatives : List Alternative),
    rules[name]? = some alternatives → alternatives ≠ []
  /-- Every alternative has a symbol. -/
  alternative_ne_nil : ∀ (name : String) (alternatives : List Alternative),
    rules[name]? = some alternatives → ∀ alternative ∈ alternatives, alternative ≠ []
  /-- Every symbol is what its token is read as, and its token has no fault. -/
  ofToken_text : ∀ (name : String) (alternatives : List Alternative),
    rules[name]? = some alternatives → ∀ alternative ∈ alternatives, ∀ s ∈ alternative,
      Symbol.ofToken rules.contains s.text = s ∧ tokenFault? s.text = none ∧ Text.IsWord s.text

/-- A start symbol with well-formed rules whose references never lead in a circle. -/
@[ext]
structure Grammar where
  start : String
  rules : Rules
  start_mem : start ∈ rules
  wellFormed : rules.WellFormed
  wellFounded : WellFounded rules.IsReferencedBy

/-- Whether every token of some rules is a word between blanks. -/
def Tokens.AreWords (tokens : Tokens) : Prop :=
  ∀ (name : String) (alternatives : List (List String)), tokens[name]? = some alternatives →
    ∀ alternative ∈ alternatives, ∀ token ∈ alternative, Text.IsWord token

namespace Tokens

/-- A rule of a list of pairs comes from one of the pairs. -/
theorem exists_of_getElem?_ofPairs {pairs : List (String × List String)} {name : String}
    {alternatives : List (List String)} (h : (ofPairs pairs)[name]? = some alternatives) :
    ∃ texts, (name, texts) ∈ pairs ∧ alternatives = texts.map Text.words := by
  rw [ofPairs, Std.ExtTreeMap.ofList_eq_insertMany_empty,
    Std.ExtTreeMap.getElem?_insertMany_list, List.findSomeRev?_eq_findSome?_reverse] at h
  simp only [Std.ExtTreeMap.getElem?_empty, Option.or_none] at h
  obtain ⟨⟨name', alternatives'⟩, hmem, hfound⟩ := List.exists_of_findSome?_eq_some h
  rw [List.mem_reverse] at hmem
  obtain ⟨⟨name'', texts⟩, hpair, heq⟩ := List.mem_map.1 hmem
  simp only [Prod.mk.injEq] at heq
  obtain ⟨rfl, rfl⟩ := heq
  simp only [Std.LawfulEqCmp.compare_eq_iff_eq, Option.ite_none_right_eq_some,
    Option.some.injEq] at hfound
  obtain ⟨rfl, rfl⟩ := hfound
  exact ⟨texts, hpair, rfl⟩

theorem areWords_ofPairs (pairs : List (String × List String)) : (ofPairs pairs).AreWords := by
  intro name alternatives h alternative ha token ht
  obtain ⟨texts, -, rfl⟩ := exists_of_getElem?_ofPairs h
  obtain ⟨text, -, rfl⟩ := List.mem_map.1 ha
  exact Text.isWord_of_mem_words ht

theorem contains_classify (tokens : Tokens) : tokens.classify.contains = tokens.contains := by
  funext name
  simp [classify]

theorem wellFormed_classify {tokens : Tokens} (hwords : tokens.AreWords)
    (hfault : tokens.fault? = none) : tokens.classify.WellFormed := by
  have hwritten : ∀ (name : String) (alternatives : List Alternative),
      tokens.classify[name]? = some alternatives → ∃ written, tokens[name]? = some written ∧
        alternatives = written.map fun a => a.map (Symbol.ofToken tokens.contains) := by
    intro name alternatives h
    rw [getElem?_classify] at h
    obtain ⟨written, hw, rfl⟩ := Option.map_eq_some_iff.1 h
    exact ⟨written, hw, rfl⟩
  rw [fault?_eq_none_iff] at hfault
  constructor
  · intro name alternatives h
    obtain ⟨written, hw, rfl⟩ := hwritten name alternatives h
    simpa using (hfault name written hw).1
  · intro name alternatives h alternative ha
    obtain ⟨written, hw, rfl⟩ := hwritten name alternatives h
    obtain ⟨tokens', ht, rfl⟩ := List.mem_map.1 ha
    simpa using ((hfault name written hw).2 tokens' ht).1
  · intro name alternatives h alternative ha s hs
    obtain ⟨written, hw, rfl⟩ := hwritten name alternatives h
    obtain ⟨tokens', ht, rfl⟩ := List.mem_map.1 ha
    obtain ⟨token, htoken, rfl⟩ := List.mem_map.1 hs
    rw [contains_classify, text_ofToken]
    exact ⟨rfl, ((hfault name written hw).2 tokens' ht).2 token htoken,
      hwords name written hw tokens' ht token htoken⟩

end Tokens

/-- The tokens of well-formed rules are words. -/
theorem Rules.WellFormed.areWords_tokens {rules : Rules} (h : rules.WellFormed) :
    rules.tokens.AreWords := by
  intro name written hw alternative ha token ht
  simp only [Rules.tokens, Std.ExtTreeMap.getElem?_map] at hw
  obtain ⟨alternatives, hrules, rfl⟩ := Option.map_eq_some_iff.1 hw
  obtain ⟨symbols, hsymbols, rfl⟩ := List.mem_map.1 ha
  obtain ⟨s, hs, rfl⟩ := List.mem_map.1 ht
  exact (h.ofToken_text name alternatives hrules symbols hsymbols s hs).2.2

theorem Tokens.AreWords.union {a b : Tokens} (ha : a.AreWords) (hb : b.AreWords) :
    (a ∪ b).AreWords := by
  intro name alternatives h
  rw [Std.ExtTreeMap.getElem?_union, Option.or_eq_some_iff] at h
  rcases h with h | ⟨-, h⟩
  · exact hb name alternatives h
  · exact ha name alternatives h

namespace Grammar

/-- The name of the start symbol of a grammar file that gives none. -/
def defaultStart : String := "S"

/-- The grammar with some start symbol and rules, or the reason why there is none. -/
def ofTokens (start : String) (tokens : Tokens) (hwords : tokens.AreWords) :
    Except GrammarError Grammar :=
  if hstart : start ∈ tokens then
    match hfault : tokens.fault? with
    | some fault => .error fault
    | none =>
      match hcycle : tokens.classify.cycle? with
      | some path => .error (.cycle path)
      | none =>
        .ok {
          start := start
          rules := tokens.classify
          start_mem := mem_iff_mem_classify.2 hstart
          wellFormed := tokens.wellFormed_classify hwords hfault
          wellFounded := Rules.wellFounded_of_cycle?_eq_none hcycle }
  else
    .error (.missingStart start)

/-- The grammar with some start symbol and the rules of a list of names and alternatives. -/
def ofRules (start : String) (pairs : List (String × List String)) :
    Except GrammarError Grammar :=
  ofTokens start (Tokens.ofPairs pairs) (Tokens.areWords_ofPairs pairs)

/-- Adds the rules of a second grammar, which take the place of rules of the same name. The
start symbol stays. -/
def merge (g h : Grammar) : Except GrammarError Grammar :=
  ofTokens g.start (g.rules.tokens ∪ h.rules.tokens)
    (g.wellFormed.areWords_tokens.union h.wellFormed.areWords_tokens)

/-- The alternatives of a rule, if the name has one. -/
def rule? (g : Grammar) (name : String) : Option (List Alternative) :=
  g.rules[name]?

/-- The rule names, in increasing order. -/
def ruleNames (g : Grammar) : List String :=
  g.rules.keys

/-- The number of rules. -/
def size (g : Grammar) : Nat :=
  g.rules.size

/-- The symbol that a token given from outside stands for. -/
def resolveToken (g : Grammar) (token : String) : Except GrammarError Symbol :=
  match tokenFault? token with
  | some fault => .error (fault.inRule "<input>" token)
  | none => .ok (Symbol.ofToken g.rules.contains token)

/-- The start symbol, as a reference to its rule. -/
def startSymbol (g : Grammar) : Symbol :=
  .nonterminal g.start

/-- `g.IsPart s t`: the symbol `s` occurs in an alternative of the rule that `t` refers to. -/
def IsPart (g : Grammar) (s t : Symbol) : Prop :=
  ∃ name alternatives alternative, t = .nonterminal name ∧
    g.rules[name]? = some alternatives ∧ alternative ∈ alternatives ∧ s ∈ alternative

theorem isReferencedBy_of_mem {rules : Rules} {name next : String}
    {alternatives : List Alternative} {alternative : Alternative}
    (hrule : rules[name]? = some alternatives) (ha : alternative ∈ alternatives)
    (hs : Symbol.nonterminal next ∈ alternative) : rules.IsReferencedBy next name := by
  refine Rules.mem_references_iff.2 ⟨alternative, ?_, hs⟩
  simpa [Rules.alternatives, Std.ExtTreeMap.getD_eq_getD_getElem?, hrule] using ha

/-- Going from a symbol to a part of it cannot go on forever. -/
theorem wellFounded_isPart (g : Grammar) : WellFounded g.IsPart := by
  have hleaf : ∀ s : Symbol, (∀ name, s ≠ .nonterminal name) → Acc g.IsPart s := by
    refine fun s hs => Acc.intro s fun t ⟨name, _, _, h, _⟩ => absurd h (hs name)
  have hrule : ∀ name, Acc g.IsPart (.nonterminal name) := by
    intro name
    induction g.wellFounded.apply name with
    | intro name _ ih =>
      refine Acc.intro _ fun s ⟨name', alternatives, alternative, hname, hrule, ha, hs⟩ => ?_
      cases hname
      cases s with
      | terminal => exact hleaf _ (by simp)
      | literal => exact hleaf _ (by simp)
      | nonterminal next => exact ih next (isReferencedBy_of_mem hrule ha hs)
  refine ⟨fun s => ?_⟩
  cases s with
  | terminal => exact hleaf _ (by simp)
  | literal => exact hleaf _ (by simp)
  | nonterminal name => exact hrule name

end Grammar

end RandomSentences
