import RandomSentences.Proofs.Construction

/-!
# The rules of a merged grammar

`Grammar.merge` writes the rules of two grammars as tokens and reads the whole anew. What this
does to a symbol is `Symbol.promote`: placeholders and references stay what they are, and a
literal becomes a reference exactly if it is the name of a rule of the other grammar. So
`getElem?_rules_merge` says of a merged grammar that a name has the alternatives of the second
grammar if it has any there, else those of the first one, with their symbols promoted.
-/

namespace RandomSentences

namespace Symbol

/-- Reads a literal as a reference if it is a rule's name. -/
def promote (isRule : String → Bool) : Symbol → Symbol
  | terminal category => terminal category
  | nonterminal name => nonterminal name
  | literal text => if isRule text then nonterminal text else literal text

/-- With more rule names, a token that was read as a symbol is read as the symbol promoted. -/
theorem ofToken_or {isRule other : String → Bool} {s : Symbol}
    (hread : ofToken isRule s.text = s) (hfault : tokenFault? s.text = none) :
    ofToken (fun name => isRule name || other name) s.text = s.promote other := by
  cases s with
  | terminal category => exact ofToken_placeholder _ category
  | nonterminal name =>
    obtain ⟨-, hbraced, hrule⟩ := ofToken_eq_nonterminal_iff.mp hread
    exact ofToken_eq_nonterminal_iff.mpr ⟨rfl, hbraced, by simp [hrule]⟩
  | literal text =>
    rw [Symbol.text] at hread hfault
    have hbraced := isBraced_of_ofToken_eq_literal hread hfault
    have hrule : isRule text = false := by
      by_contra hrule
      have hname := ofToken_eq_nonterminal_iff.mpr ⟨rfl, hbraced, by simpa using hrule⟩
      simp [hname] at hread
    simp [ofToken, promote, Symbol.text, hbraced, hrule]

end Symbol

/-- Alternatives with all of their symbols promoted. -/
def promoteAll (isRule : String → Bool) (alternatives : List Alternative) : List Alternative :=
  alternatives.map fun alternative => alternative.map (Symbol.promote isRule)

/-- Writing well-formed rules as tokens and reading them with more rule names promotes their
symbols. -/
theorem Rules.WellFormed.map_ofToken_or {rules : Rules} (h : rules.WellFormed)
    (other : String → Bool) {name : String} {alternatives : List Alternative}
    (hrule : rules[name]? = some alternatives) :
    (alternatives.map fun alternative => (alternative.map Symbol.text).map
      (Symbol.ofToken fun name => rules.contains name || other name)) =
      promoteAll other alternatives := by
  refine List.map_congr_left fun alternative ha => ?_
  rw [List.map_map]
  refine List.map_congr_left fun s hs => ?_
  obtain ⟨hread, hfault, -⟩ := h.ofToken_text name alternatives hrule alternative ha s hs
  exact Symbol.ofToken_or hread hfault

theorem getElem?_tokens (rules : Rules) (name : String) :
    rules.tokens[name]? = rules[name]?.map fun alternatives =>
      alternatives.map fun alternative => alternative.map Symbol.text := by
  simp [Rules.tokens]

theorem contains_tokens (rules : Rules) (name : String) :
    rules.tokens.contains name = rules.contains name := by
  simp [Rules.tokens]

namespace Grammar

variable {g h m : Grammar}

/-- A merged grammar is built from the tokens of both, with the start of the first. -/
theorem merge_eq_ok_iff :
    g.merge h = .ok m ↔
      (g.start ∈ g.rules.tokens ∪ h.rules.tokens ∧
        (g.rules.tokens ∪ h.rules.tokens).fault? = none ∧
        (g.rules.tokens ∪ h.rules.tokens).classify.cycle? = none) ∧
      m.start = g.start ∧ m.rules = (g.rules.tokens ∪ h.rules.tokens).classify :=
  ofTokens_eq_ok_iff

theorem contains_rules_merge (hm : g.merge h = .ok m) (name : String) :
    m.rules.contains name = (g.rules.contains name || h.rules.contains name) := by
  rw [(merge_eq_ok_iff.mp hm).2.2, Tokens.contains_classify, Std.ExtTreeMap.contains_union,
    contains_tokens, contains_tokens]

theorem mem_rules_merge_right (hm : g.merge h = .ok m) {name : String}
    (hname : h.rules.contains name = true) : name ∈ m.rules := by
  rw [← Std.ExtTreeMap.contains_iff_mem, contains_rules_merge hm, hname, Bool.or_true]

/-- A name of a merged grammar has the alternatives of the second grammar or else those of the
first, with the rules of the other grammar known. -/
theorem getElem?_rules_merge (hm : g.merge h = .ok m) (name : String) :
    m.rules[name]? = (h.rules[name]?.map (promoteAll g.rules.contains)).or
      (g.rules[name]?.map (promoteAll h.rules.contains)) := by
  have hnames : (g.rules.tokens ∪ h.rules.tokens).contains =
      fun name => g.rules.contains name || h.rules.contains name := by
    funext name
    rw [Std.ExtTreeMap.contains_union, contains_tokens, contains_tokens]
  have hnames' : (fun name => g.rules.contains name || h.rules.contains name) =
      fun name => h.rules.contains name || g.rules.contains name := by
    funext name
    exact Bool.or_comm ..
  rw [(merge_eq_ok_iff.mp hm).2.2, getElem?_classify, Std.ExtTreeMap.getElem?_union,
    getElem?_tokens, getElem?_tokens, hnames]
  cases hsecond : h.rules[name]? with
  | some alternatives =>
    rw [hnames']
    simpa using h.wellFormed.map_ofToken_or g.rules.contains hsecond
  | none =>
    cases hfirst : g.rules[name]? with
    | none => rfl
    | some alternatives => simpa using g.wellFormed.map_ofToken_or h.rules.contains hfirst

/-- A name that only the first grammar has a rule for keeps its alternatives. -/
theorem getElem?_rules_merge_left (hm : g.merge h = .ok m) {name : String}
    (hname : ¬ h.rules.contains name = true) :
    m.rules[name]? = g.rules[name]?.map (promoteAll h.rules.contains) := by
  have hnone : h.rules[name]? = none := Std.ExtTreeMap.getElem?_eq_none (by simpa using hname)
  rw [getElem?_rules_merge hm, hnone, Option.map_none, Option.none_or]

end Grammar

end RandomSentences
