import RandomSentences.Proofs.Bracketing
import RandomSentences.Proofs.Pruning

/-!
# Overriding the rules of a grammar

Merging a second grammar into a first one overrides the rules that both have. All that can go wrong
is that rules of the two refer to each other in a circle. `Grammar.winning?` are the alternatives
that a name is left with and `Grammar.WinningRefersTo` what they refer to, both said of the two
grammars alone; `Grammar.merge_iff_acyclic` says in these terms when grammars can be merged, and
which grammar comes of it.

A failure names a cycle, and `Grammar.isCircuit_of_cycle` says that the names it gives are one:
`IsCircuit` is a closed path of references on which no name but the last is met twice. This is so
whether the rules come from a draft or from two grammars, since both are searched as tokens read
together (`Tokens.isCycle_of_ofTokens`).
-/

namespace RandomSentences

/-! ### Closed paths -/

/-- `IsCircuit isRule refers path`: from each name of the path a reference leads to the next one,
the last name is the first one again, and otherwise no name occurs twice. -/
structure IsCircuit (isRule : String → Prop) (refers : String → String → Prop)
    (path : List String) : Prop where
  /-- Besides the name that closes the path there is another entry. -/
  two_le_length : 2 ≤ path.length
  /-- The path ends where it starts. -/
  head?_eq_getLast? : path.head? = path.getLast?
  /-- No name occurs twice before the end. -/
  nodup_dropLast : path.dropLast.Nodup
  /-- Every name has a rule. -/
  isRule_of_mem : ∀ name ∈ path, isRule name
  /-- Every name refers to the next. -/
  isChain : path.IsChain refers

/-- A cycle of rules is a circuit of whatever the names and the references of the rules are. -/
theorem Rules.IsCycle.isCircuit {rules : Rules} {path : List String} (h : rules.IsCycle path)
    {isRule : String → Prop} {refers : String → String → Prop}
    (hrule : ∀ name, name ∈ rules → isRule name)
    (hrefers : ∀ name next, rules.RefersTo name next → refers name next) :
    IsCircuit isRule refers path :=
  { two_le_length := h.two_le_length
    head?_eq_getLast? := h.head?_eq_getLast?
    nodup_dropLast := h.nodup_dropLast
    isRule_of_mem := fun name hname => hrule name (h.mem_rules name hname)
    isChain := h.isChain.imp hrefers }

/-- No rule taken by itself is refused for a cycle. -/
theorem ruleFault?_ne_cycle (rule : String) (alternatives : List (List String))
    (path : List String) : ruleFault? rule alternatives ≠ some (.cycle path) := by
  intro h
  rw [ruleFault?] at h
  split at h
  · simp at h
  · obtain ⟨⟨tokens, index⟩, -, hfault⟩ := List.exists_of_findSome?_eq_some h
    simp only [alternativeFault?] at hfault
    split at hfault
    · simp at hfault
    · obtain ⟨token, -, htoken⟩ := List.exists_of_findSome?_eq_some hfault
      obtain ⟨fault, -, hcause⟩ := Option.map_eq_some_iff.mp htoken
      cases fault <;> simp [TokenFault.inRule] at hcause

theorem Tokens.fault?_ne_cycle (tokens : Tokens) (path : List String) :
    tokens.fault? ≠ some (.cycle path) := by
  intro h
  obtain ⟨⟨rule, alternatives⟩, -, hfault⟩ := List.exists_of_findSome?_eq_some h
  exact ruleFault?_ne_cycle rule alternatives path hfault

/-- Tokens that are refused for a cycle have this cycle when they are read. -/
theorem Tokens.isCycle_of_ofTokens {start : String} {tokens : Tokens} {hwords : tokens.AreWords}
    {path : List String} (h : Grammar.ofTokens start tokens hwords = .error (.cycle path)) :
    tokens.classify.IsCycle path := by
  unfold Grammar.ofTokens at h
  split at h
  · split at h
    · rename_i fault hfault
      obtain rfl : fault = .cycle path := by simpa using h
      exact absurd hfault (tokens.fault?_ne_cycle path)
    · split at h
      · rename_i found hcycle
        obtain rfl : found = path := by simpa using h
        exact Rules.isCycle_of_cycle?_eq_some hcycle
      · simp at h
  · simp at h

namespace Grammar

variable {g h : Grammar}

/-! ### The rules that win -/

/-- The alternatives that a name is left with when the second grammar overrides the first. -/
def winning? (g h : Grammar) (name : String) : Option (List Alternative) :=
  (h.rule? name).or (g.rule? name)

/-- `g.WinningRefersTo h name next`: where the second grammar overrides the first, a token of the
rule `name` is not braced and is the name of the rule `next` of either grammar. -/
def WinningRefersTo (g h : Grammar) (name next : String) : Prop :=
  isBraced next.toList = false ∧ (next ∈ g.ruleNames ∨ next ∈ h.ruleNames) ∧
    ∃ alternatives, g.winning? h name = some alternatives ∧
      ∃ alternative ∈ alternatives, ∃ s ∈ alternative, s.text = next

theorem mem_union_tokens_iff {name : String} :
    name ∈ g.rules.tokens ∪ h.rules.tokens ↔ name ∈ g.ruleNames ∨ name ∈ h.ruleNames := by
  rw [Std.ExtTreeMap.mem_union_iff, ← Std.ExtTreeMap.contains_iff_mem,
    ← Std.ExtTreeMap.contains_iff_mem, contains_tokens, contains_tokens, ruleNames, ruleNames,
    Std.ExtTreeMap.mem_keys, Std.ExtTreeMap.mem_keys, Std.ExtTreeMap.contains_iff_mem,
    Std.ExtTreeMap.contains_iff_mem]

/-- The tokens of two grammars together are those of the alternatives that win. -/
theorem getElem?_union_tokens (name : String) :
    (g.rules.tokens ∪ h.rules.tokens)[name]? = (g.winning? h name).map fun alternatives =>
      alternatives.map fun alternative => alternative.map Symbol.text := by
  rw [Std.ExtTreeMap.getElem?_union, getElem?_tokens, getElem?_tokens, winning?, Option.map_or]
  rfl

/-- What the tokens of two grammars refer to when they are read together. -/
theorem refersTo_classify_union_iff {name next : String} :
    (g.rules.tokens ∪ h.rules.tokens).classify.RefersTo name next ↔
      g.WinningRefersTo h name next := by
  rw [Rules.RefersTo, Tokens.mem_references_classify_iff, mem_union_tokens_iff,
    getElem?_union_tokens, WinningRefersTo]
  cases g.winning? h name <;> simp

theorem cycle?_union_eq_none_iff :
    (g.rules.tokens ∪ h.rules.tokens).classify.cycle? = none ↔
      ∀ name, ¬ Relation.TransGen (g.WinningRefersTo h) name name := by
  have hrefers : (g.rules.tokens ∪ h.rules.tokens).classify.RefersTo = g.WinningRefersTo h := by
    funext name next
    exact propext refersTo_classify_union_iff
  rw [Rules.cycle?_eq_none_iff, hrefers]

/-- Merging fails exactly if the rules that win lead back to themselves. -/
theorem exists_merge_eq_error_iff :
    (∃ cause, g.merge h = .error cause) ↔
      ∃ name, Relation.TransGen (g.WinningRefersTo h) name name := by
  rw [← not_iff_not, not_exists, not_exists, ← cycle?_union_eq_none_iff, ← exists_merge_eq_ok_iff]
  cases g.merge h <;> simp

/-! ### What comes of merging -/

/-- A merged grammar is built from the texts that both grammars were built from. -/
theorem merge_eq_ofRules_of_builtFrom {first second : Draft} (hg : g.BuiltFrom first)
    (hh : h.BuiltFrom second) : g.merge h = ofRules g.start (first ++ second) := by
  rw [merge, ofRules]
  refine ofTokens_congr rfl ?_
  rw [Draft.ofPairs_append, hg.ofPairs_eq_tokens, hh.ofPairs_eq_tokens]

theorem mem_ruleNames_merge_iff {m : Grammar} (hm : g.merge h = .ok m) {name : String} :
    name ∈ m.ruleNames ↔ name ∈ g.ruleNames ∨ name ∈ h.ruleNames := by
  rw [ruleNames, (merge_eq_ok_iff.mp hm).2.2, Std.ExtTreeMap.mem_keys, mem_iff_mem_classify,
    mem_union_tokens_iff]

/-- **Merging fails on nothing but a cycle of the rules that win.** Otherwise the merged grammar has
the start symbol of the first grammar and the rule names of both. A name that the second grammar has
keeps the alternatives that it has there, and any other name those of the first, with the same
symbols except that literals which are rule names of the other grammar have become references. It is
the grammar that is built from the texts of both, those of the second one last. -/
theorem merge_iff_acyclic (g h : Grammar) :
    ((∃ cause, g.merge h = .error cause) ↔
      ∃ name, Relation.TransGen (g.WinningRefersTo h) name name) ∧
    (∀ cause, g.merge h = .error cause → ∃ path, cause = .cycle path) ∧
    (∀ m, g.merge h = .ok m →
      m.start = g.start ∧
      (∀ name, name ∈ m.ruleNames ↔ name ∈ g.ruleNames ∨ name ∈ h.ruleNames) ∧
      (∀ name alternatives, h.rule? name = some alternatives →
        m.rule? name = some (promoteAll g.rules.contains alternatives)) ∧
      ∀ name alternatives, name ∉ h.ruleNames → g.rule? name = some alternatives →
        m.rule? name = some (promoteAll h.rules.contains alternatives)) ∧
    ∀ first second, g.BuiltFrom first → h.BuiltFrom second →
      g.merge h = ofRules g.start (first ++ second) := by
  refine ⟨exists_merge_eq_error_iff, fun cause hcause => ?_, fun m hm => ?_,
    fun first second => merge_eq_ofRules_of_builtFrom⟩
  · obtain ⟨path, -, hpath⟩ := merge_eq_error_iff.mp hcause
    exact ⟨path, hpath⟩
  · refine ⟨(merge_eq_ok_iff.mp hm).2.1, fun name => mem_ruleNames_merge_iff hm,
      fun name alternatives hrule => ?_, fun name alternatives hname hrule => ?_⟩
    · rw [rule?] at hrule ⊢
      rw [getElem?_rules_merge hm, hrule, Option.map_some, Option.some_or]
    · have hnone : ¬ h.rules.contains name = true := by
        rwa [Std.ExtTreeMap.contains_iff_mem, ← Std.ExtTreeMap.mem_keys]
      rw [rule?] at hrule ⊢
      rw [getElem?_rules_merge_left hm hnone, hrule, Option.map_some]

/-- Somebody who sees a beast, and what a fox is. -/
def sightingRules : Draft :=
  [("S", ["who sees the Beast"]), ("Fox", ["red \x7bnouns\x7d"])]

/-- A beast that is an old fox. -/
def beastRules : Draft :=
  [("Beast", ["old Fox"])]

theorem isOk_sighting : (ofRules "S" sightingRules).isOk = true := by
  decide +kernel

theorem isOk_beast : (ofRules "Beast" beastRules).isOk = true := by
  decide +kernel

theorem isOk_mirror : (ofRules "Beast" [("Beast", ["S"])]).isOk = true := by
  decide +kernel

/-- The grammar of a sighting, where the beast is a literal. -/
def sighting : Grammar :=
  resultOf (ofRules "S" sightingRules) isOk_sighting

/-- The grammar of a beast, where the fox is a literal. -/
def beast : Grammar :=
  resultOf (ofRules "Beast" beastRules) isOk_beast

/-- The grammar of a beast that sees itself, where the start of the sighting is a literal. -/
def mirror : Grammar :=
  resultOf (ofRules "Beast" [("Beast", ["S"])]) isOk_mirror

theorem merge_sighting_mirror :
    sighting.merge mirror = .error (.cycle ["Beast", "S", "Beast"]) :=
  merge_eq_error_iff.mpr ⟨_, by decide +kernel, rfl⟩

/-- The beast that is seen is an old fox, and the fox is red: each of the two grammars has a literal
that the other one makes a reference. With the mirror the sighting leads back to itself. -/
theorem merge_iff_acyclic_beast :
    (∃ m, sighting.merge beast = .ok m ∧ m.start = sighting.start ∧
      m.rule? "S" = some [[.literal "who", .literal "sees", .literal "the",
        .nonterminal "Beast"]] ∧
      m.rule? "Beast" = some [[.literal "old", .nonterminal "Fox"]]) ∧
    sighting.merge beast = ofRules sighting.start (sightingRules ++ beastRules) ∧
    ∃ cause, sighting.merge mirror = .error cause ∧ ∃ path, cause = .cycle path := by
  have hm : (sighting.merge beast).isOk = true := by decide +kernel
  have hS : sighting.rule? "S" =
      some [[.literal "who", .literal "sees", .literal "the", .literal "Beast"]] := by
    decide +kernel
  have hnone : "S" ∉ beast.ruleNames := by decide +kernel
  have hBeast : beast.rule? "Beast" = some [[.literal "old", .literal "Fox"]] := by decide +kernel
  have hkept : promoteAll beast.rules.contains
      [[.literal "who", .literal "sees", .literal "the", .literal "Beast"]] =
      [[.literal "who", .literal "sees", .literal "the", .nonterminal "Beast"]] := by
    decide +kernel
  have hwon : promoteAll sighting.rules.contains [[.literal "old", .literal "Fox"]] =
      [[.literal "old", .nonterminal "Fox"]] := by
    decide +kernel
  obtain ⟨-, -, hmerged, htexts⟩ := merge_iff_acyclic sighting beast
  obtain ⟨hstart, -, hsecond, hfirst⟩ := hmerged _ (eq_ok_resultOf _ hm)
  refine ⟨⟨_, eq_ok_resultOf _ hm, hstart, ?_, ?_⟩, ?_, _, merge_sighting_mirror, ?_⟩
  · rw [hfirst "S" _ hnone hS, hkept]
  · rw [hsecond "Beast" _ hBeast, hwon]
  · exact htexts _ _ (.ofRules (eq_ok_resultOf _ isOk_sighting))
      (.ofRules (eq_ok_resultOf _ isOk_beast))
  · exact (merge_iff_acyclic sighting mirror).2.1 _ merge_sighting_mirror

/-! ### What is reported -/

/-- **A cycle that is reported is one.** Whether a draft or the merging of two grammars is refused
for it, the names that are reported are a closed path of references on which no name but the last is
met twice. -/
theorem isCircuit_of_cycle :
    (∀ (start : String) (draft : Draft) (path : List String),
      ofRules start draft = .error (.cycle path) →
        IsCircuit (fun name => (draft.given? name).isSome) draft.RefersTo path) ∧
    ∀ (g h : Grammar) (path : List String), g.merge h = .error (.cycle path) →
      IsCircuit (fun name => name ∈ g.ruleNames ∨ name ∈ h.ruleNames) (g.WinningRefersTo h)
        path := by
  constructor
  · intro start draft path hpath
    refine (Tokens.isCycle_of_ofTokens hpath).isCircuit (fun name hname => ?_) fun name next => ?_
    · rw [← Draft.contains_ofPairs, Std.ExtTreeMap.contains_iff_mem]
      exact mem_iff_mem_classify.mp hname
    · exact Draft.mem_references_classify.mp
  · intro g h path hpath
    refine (Tokens.isCycle_of_ofTokens hpath).isCircuit (fun name hname => ?_) fun name next => ?_
    · exact mem_union_tokens_iff.mp (mem_iff_mem_classify.mp hname)
    · exact refersTo_classify_union_iff.mp

/-- A chase: a fox has a tail, the tail is a fox's, and an ear hears of the start. -/
def chase : Draft :=
  [("S", ["the Fox runs"]), ("Fox", ["a Tail", "Ear"]), ("Tail", ["of Fox"]), ("Ear", ["hears S"])]

/-- Of the two cycles of the chase the search, which starts at the ear, reports the one that does
not lead there; and the mirror of a sighting is reported when it is merged. -/
theorem isCircuit_of_cycle_chase :
    (ofRules "S" chase = .error (.cycle ["Fox", "Tail", "Fox"]) ∧
      IsCircuit (fun name => (chase.given? name).isSome) chase.RefersTo ["Fox", "Tail", "Fox"]) ∧
    sighting.merge mirror = .error (.cycle ["Beast", "S", "Beast"]) ∧
      IsCircuit (fun name => name ∈ sighting.ruleNames ∨ name ∈ mirror.ruleNames)
        (sighting.WinningRefersTo mirror) ["Beast", "S", "Beast"] := by
  have hchase : ofRules "S" chase = .error (.cycle ["Fox", "Tail", "Fox"]) :=
    (ofTokens_eq_error_iff (by decide +kernel) (by decide +kernel)).mpr
      ⟨_, by decide +kernel, rfl⟩
  obtain ⟨hdraft, hmerged⟩ := isCircuit_of_cycle
  exact ⟨⟨hchase, hdraft _ _ _ hchase⟩, merge_sighting_mirror, hmerged _ _ _ merge_sighting_mirror⟩

end Grammar

end RandomSentences
