import RandomSentences.Proofs.Cycle
import RandomSentences.Grammar.Basic

/-!
# When a grammar can be built

`Grammar.ofRules` gets a start name and a *draft*, a list of rule names with their alternatives
as texts. `Draft.Acceptable` says in terms of the draft alone what it takes: the start has a rule,
no rule is without alternatives, no alternative without tokens, every braced token is a category's
placeholder, and no rule leads back to itself along references. `ofRules_iff_acceptable` says
that this is exactly when a grammar is built, and that the grammar then holds the tokens of the
draft, each read by `Draft.symbolOf`.

The search for cycles goes through the rules as they were read. `mem_references_classify` carries
its result over to the draft: in rules without a fault, a reference is a token that has a rule and
is not braced.
-/

namespace RandomSentences

/-- Rules as they are given: names, each with its alternatives. -/
abbrev Draft := List (String × List String)

namespace Draft

/-- The alternatives given to a name. Of several entries for the name the last one counts. -/
def given? (draft : Draft) (name : String) : Option (List String) :=
  draft.reverse.lookup name

/-- `draft.RefersTo name next`: a token of the rule `name` is not braced and is the name of the
rule `next`. -/
def RefersTo (draft : Draft) (name next : String) : Prop :=
  isBraced next.toList = false ∧ (draft.given? next).isSome ∧
    ∃ alternatives, draft.given? name = some alternatives ∧
      ∃ alternative ∈ alternatives, next ∈ Text.words alternative

/-- What it takes to build a grammar from a start name and a draft. -/
structure Acceptable (draft : Draft) (start : String) : Prop where
  /-- The start has a rule. -/
  start_given : (draft.given? start).isSome
  /-- Every rule has an alternative. -/
  ne_nil : ∀ (name : String) (alternatives : List String),
    draft.given? name = some alternatives → alternatives ≠ []
  /-- Every alternative has a token. -/
  words_ne_nil : ∀ (name : String) (alternatives : List String),
    draft.given? name = some alternatives →
      ∀ alternative ∈ alternatives, Text.words alternative ≠ []
  /-- Every token that starts with an opening or ends with a closing brace is a placeholder. -/
  placeholder_of_isBraced : ∀ (name : String) (alternatives : List String),
    draft.given? name = some alternatives → ∀ alternative ∈ alternatives,
      ∀ token ∈ Text.words alternative, isBraced token.toList = true →
        ∃ category : Category, token = category.placeholder
  /-- No rule leads back to itself along references. -/
  acyclic : ∀ name, ¬ Relation.TransGen draft.RefersTo name name

/-- The symbol that a token stands for: a placeholder stands for its category, any other token
for the rule of that name if there is one, and for itself if there is none. -/
def symbolOf (draft : Draft) (token : String) : Symbol :=
  match Category.all.find? fun category => category.placeholder == token with
  | some category => .terminal category
  | none => if (draft.given? token).isSome then .nonterminal token else .literal token

end Draft

/-! ### Tokens -/

/-- A token has no fault exactly if it is a placeholder or not braced. -/
theorem tokenFault?_eq_none_iff {token : String} :
    tokenFault? token = none ↔
      (isBraced token.toList = true → ∃ category : Category, token = category.placeholder) := by
  constructor
  · intro h hbraced
    rw [tokenFault?, if_pos hbraced] at h
    cases hcategory : bracedCategory token with
    | error fault => simp [hcategory] at h
    | ok category => exact ⟨category, eq_placeholder_of_bracedCategory hcategory⟩
  · intro h
    by_cases hbraced : isBraced token.toList = true
    · obtain ⟨category, rfl⟩ := h hbraced
      exact tokenFault?_placeholder category
    · rw [tokenFault?, if_neg hbraced]

/-- A token without a fault that is read as a literal is not braced. -/
theorem isBraced_of_ofToken_eq_literal {isRule : String → Bool} {token : String}
    (hread : Symbol.ofToken isRule token = .literal token) (hfault : tokenFault? token = none) :
    isBraced token.toList = false := by
  by_contra hbraced
  obtain ⟨category, rfl⟩ := tokenFault?_eq_none_iff.mp hfault (by simpa using hbraced)
  simp [ofToken_placeholder] at hread

theorem find?_placeholder (category : Category) :
    (Category.all.find? fun other => other.placeholder == category.placeholder) =
      some category := by
  cases category <;> decide

/-- Only a placeholder is found among the placeholders. -/
theorem find?_placeholder_eq_none {token : String} (h : isBraced token.toList = false) :
    (Category.all.find? fun other => other.placeholder == token) = none := by
  rw [List.find?_eq_none]
  rintro category - hcategory
  obtain rfl : category.placeholder = token := by simpa using hcategory
  rw [isBraced_placeholder] at h
  exact Bool.noConfusion h

/-- A token without a fault is read as the symbol that it stands for. -/
theorem ofToken_eq_symbolOf {draft : Draft} {isRule : String → Bool} {token : String}
    (hrule : isRule token = (draft.given? token).isSome) (h : tokenFault? token = none) :
    Symbol.ofToken isRule token = draft.symbolOf token := by
  cases hbraced : isBraced token.toList with
  | true =>
    obtain ⟨category, rfl⟩ := tokenFault?_eq_none_iff.mp h hbraced
    rw [ofToken_placeholder, Draft.symbolOf, find?_placeholder]
  | false =>
    rw [Symbol.ofToken, hbraced, Draft.symbolOf, find?_placeholder_eq_none hbraced, hrule]
    rfl

/-- What rules that are read from tokens refer to: the tokens that have a rule and are not
braced. -/
theorem Tokens.mem_references_classify_iff {tokens : Tokens} {name next : String} :
    next ∈ tokens.classify.references name ↔ isBraced next.toList = false ∧ next ∈ tokens ∧
      ∃ alternatives, tokens[name]? = some alternatives ∧
        ∃ alternative ∈ alternatives, next ∈ alternative := by
  have halternatives : tokens.classify.alternatives name =
      (tokens[name]?.getD []).map fun alternative =>
        alternative.map (Symbol.ofToken tokens.contains) := by
    rw [Rules.alternatives, Std.ExtTreeMap.getD_eq_getD_getElem?, getElem?_classify]
    cases tokens[name]? <;> rfl
  rw [Rules.mem_references_iff, halternatives]
  constructor
  · rintro ⟨_, hread, hnext⟩
    obtain ⟨alternative, ha, rfl⟩ := List.mem_map.mp hread
    obtain ⟨token, htoken, hreference⟩ := List.mem_map.mp hnext
    obtain ⟨rfl, hbraced, hrule⟩ := ofToken_eq_nonterminal_iff.mp hreference
    refine ⟨hbraced, Std.ExtTreeMap.contains_iff_mem.mp hrule, ?_⟩
    cases hgiven : tokens[name]? with
    | none => simp [hgiven] at ha
    | some alternatives =>
      exact ⟨alternatives, rfl, alternative, by simpa [hgiven] using ha, htoken⟩
  · rintro ⟨hbraced, hrule, alternatives, hgiven, alternative, ha, hnext⟩
    refine ⟨_, List.mem_map.mpr ⟨alternative, by simpa [hgiven] using ha, rfl⟩, ?_⟩
    exact List.mem_map.mpr ⟨next, hnext, ofToken_eq_nonterminal_iff.mpr
      ⟨rfl, hbraced, Std.ExtTreeMap.contains_iff_mem.mpr hrule⟩⟩

/-! ### The tokens of a draft -/

namespace Draft

variable {draft : Draft}

/-- The tokens of a draft are those of the entries that count. -/
theorem getElem?_ofPairs (draft : Draft) (name : String) :
    (Tokens.ofPairs draft)[name]? =
      (draft.given? name).map fun alternatives => alternatives.map Text.words := by
  rw [Tokens.ofPairs, Std.ExtTreeMap.ofList_eq_insertMany_empty,
    Std.ExtTreeMap.getElem?_insertMany_list, List.findSomeRev?_eq_findSome?_reverse, given?,
    List.lookup_eq_findSome?, ← List.map_reverse, List.findSome?_map]
  rw [Std.ExtTreeMap.getElem?_empty, Option.or_none, List.map_findSome?]
  congr 1
  funext entry
  obtain ⟨other, alternatives⟩ := entry
  by_cases h : other = name
  · simp [h]
  · simp [h, Ne.symm h]

theorem contains_ofPairs (draft : Draft) (name : String) :
    (Tokens.ofPairs draft).contains name = (draft.given? name).isSome := by
  rw [Std.ExtTreeMap.contains_eq_isSome_getElem?, getElem?_ofPairs, Option.isSome_map]

/-- The rules of a draft without a fault hold the symbols that its tokens stand for. -/
theorem getElem?_classify_ofPairs (h : (Tokens.ofPairs draft).fault? = none) (name : String) :
    (Tokens.ofPairs draft).classify[name]? = (draft.given? name).map fun alternatives =>
      alternatives.map fun alternative => (Text.words alternative).map draft.symbolOf := by
  rw [getElem?_classify, getElem?_ofPairs, Option.map_map]
  refine Option.map_congr fun alternatives hgiven => ?_
  have hgiven : draft.given? name = some alternatives := by simpa using hgiven
  simp only [Function.comp_apply, List.map_map]
  refine List.map_congr_left fun alternative ha => ?_
  refine List.map_congr_left fun token ht => ?_
  have hfault := fault?_eq_none_iff.mp h name (alternatives.map Text.words)
    (by rw [getElem?_ofPairs, hgiven, Option.map_some])
  have hwords := (hfault.2 _ (List.mem_map_of_mem ha)).2
  exact ofToken_eq_symbolOf (contains_ofPairs draft token) (hwords token ht)

/-- Tokens have no fault exactly if what a draft must fulfil of itself holds. -/
theorem fault?_ofPairs_eq_none_iff :
    (Tokens.ofPairs draft).fault? = none ↔ ∀ (name : String) (alternatives : List String),
      draft.given? name = some alternatives → alternatives ≠ [] ∧
        ∀ alternative ∈ alternatives, Text.words alternative ≠ [] ∧
          ∀ token ∈ Text.words alternative, isBraced token.toList = true →
            ∃ category : Category, token = category.placeholder := by
  simp only [fault?_eq_none_iff, getElem?_ofPairs, Option.map_eq_some_iff,
    tokenFault?_eq_none_iff]
  constructor
  · intro h name alternatives hgiven
    simpa using h name _ ⟨alternatives, hgiven, rfl⟩
  · rintro h name _ ⟨alternatives, hgiven, rfl⟩
    simpa using h name alternatives hgiven

/-- The references of the rules that a draft is read as are those of the draft. -/
theorem mem_references_classify {name next : String} :
    next ∈ (Tokens.ofPairs draft).classify.references name ↔ draft.RefersTo name next := by
  rw [Tokens.mem_references_classify_iff, RefersTo, ← Std.ExtTreeMap.contains_iff_mem,
    contains_ofPairs, getElem?_ofPairs]
  cases draft.given? name <;> simp

theorem cycle?_classify_eq_none_iff :
    (Tokens.ofPairs draft).classify.cycle? = none ↔
      ∀ name, ¬ Relation.TransGen draft.RefersTo name name := by
  have hrefers : (Tokens.ofPairs draft).classify.RefersTo = draft.RefersTo := by
    funext name next
    exact propext mem_references_classify
  rw [Rules.cycle?_eq_none_iff, hrefers]

/-- A draft is acceptable exactly if all three checks pass. -/
theorem acceptable_iff {start : String} :
    draft.Acceptable start ↔ start ∈ Tokens.ofPairs draft ∧ (Tokens.ofPairs draft).fault? = none ∧
      (Tokens.ofPairs draft).classify.cycle? = none := by
  rw [fault?_ofPairs_eq_none_iff, cycle?_classify_eq_none_iff, ← Std.ExtTreeMap.contains_iff_mem,
    contains_ofPairs]
  constructor
  · rintro ⟨hstart, hne, hwords, hbraced, hacyclic⟩
    exact ⟨hstart, fun name alternatives h => ⟨hne name alternatives h, fun alternative ha =>
      ⟨hwords name alternatives h alternative ha, hbraced name alternatives h alternative ha⟩⟩,
      hacyclic⟩
  · rintro ⟨hstart, h, hacyclic⟩
    exact ⟨hstart, fun name alternatives hgiven => (h name alternatives hgiven).1,
      fun name alternatives hgiven alternative ha => ((h name alternatives hgiven).2 _ ha).1,
      fun name alternatives hgiven alternative ha => ((h name alternatives hgiven).2 _ ha).2,
      hacyclic⟩

end Draft

/-! ### Building -/

namespace Grammar

/-- A grammar is built from tokens exactly if the start has a rule and neither a fault nor a cycle
is found; then it is the grammar with that start and the tokens read. -/
theorem ofTokens_eq_ok_iff {start : String} {tokens : Tokens} {hwords : tokens.AreWords}
    {g : Grammar} :
    ofTokens start tokens hwords = .ok g ↔
      (start ∈ tokens ∧ tokens.fault? = none ∧ tokens.classify.cycle? = none) ∧
        g.start = start ∧ g.rules = tokens.classify := by
  unfold ofTokens
  split
  · rename_i hstart
    split
    · rename_i fault hfault
      simp [hfault]
    · rename_i hfault
      split
      · rename_i path hcycle
        simp [hcycle]
      · rename_i hcycle
        simp [hstart, hfault, hcycle, Grammar.ext_iff, eq_comm]
  · rename_i hstart
    simp [hstart]

/-- Nothing but a missing start, a fault or a cycle keeps tokens from becoming a grammar. -/
theorem exists_ofTokens_eq_ok_iff {start : String} {tokens : Tokens} {hwords : tokens.AreWords} :
    (∃ g, ofTokens start tokens hwords = .ok g) ↔
      start ∈ tokens ∧ tokens.fault? = none ∧ tokens.classify.cycle? = none := by
  refine ⟨fun ⟨g, hg⟩ => (ofTokens_eq_ok_iff.mp hg).1, fun h => ?_⟩
  obtain ⟨hstart, hfault, hcycle⟩ := h
  let g : Grammar :=
    { start := start
      rules := tokens.classify
      start_mem := mem_iff_mem_classify.mpr hstart
      wellFormed := tokens.wellFormed_classify hwords hfault
      wellFounded := Rules.wellFounded_of_cycle?_eq_none hcycle }
  exact ⟨g, ofTokens_eq_ok_iff.mpr ⟨⟨hstart, hfault, hcycle⟩, rfl, rfl⟩⟩

/-- **A grammar is built exactly from an acceptable draft.** It then has the start and the rule
names of the draft, and in every rule the alternatives of the draft, in order, with every token
read as what it stands for. -/
theorem ofRules_iff_acceptable (start : String) (draft : Draft) :
    ((∃ g, ofRules start draft = .ok g) ↔ draft.Acceptable start) ∧
      ∀ g, ofRules start draft = .ok g → g.start = start ∧
        (∀ name, name ∈ g.ruleNames ↔ (draft.given? name).isSome) ∧
        ∀ name, g.rule? name = (draft.given? name).map fun alternatives =>
          alternatives.map fun alternative => (Text.words alternative).map draft.symbolOf := by
  refine ⟨exists_ofTokens_eq_ok_iff.trans Draft.acceptable_iff.symm, fun g hg => ?_⟩
  obtain ⟨⟨-, hfault, -⟩, hstart, hrules⟩ := ofTokens_eq_ok_iff.mp hg
  refine ⟨hstart, fun name => ?_, fun name => ?_⟩
  · rw [ruleNames, hrules, Std.ExtTreeMap.mem_keys, mem_iff_mem_classify,
      ← Std.ExtTreeMap.contains_iff_mem, Draft.contains_ofPairs]
  · rw [rule?, hrules, Draft.getElem?_classify_ofPairs hfault]

end Grammar

end RandomSentences
