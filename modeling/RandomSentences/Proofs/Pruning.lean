import RandomSentences.Proofs.Derivation
import RandomSentences.Proofs.Reach
import RandomSentences.Proofs.Writing
import RandomSentences.Grammar.File
import RandomSentences.Sentence.Expansion
import RandomSentences.Store.Memory

/-!
# Rules that do not matter

What a symbol is expanded to depends on nothing but the rules that it reaches: two grammars that
agree on these derive the symbol alike from every source of choices (`derive_congr`). So the rules
that the start symbol does not reach can be left out of a grammar.

That the rest is a grammar again is not plain to see, because a token is read as a reference or as
a literal depending on which names have a rule. But the names that are left out are met in no rule
that is kept. This is all that is needed: whenever the kept rules refer to kept rules only, a
grammar's tokens without the other rules are read as the same symbols (`Restricts`).
`exists_ofRules_pruned` puts the two parts together.
-/

namespace RandomSentences

/-- With fewer rule names a symbol's token is still read as the symbol, if the name that it refers
to is among them. -/
theorem Symbol.ofToken_text_of_fewer {isRule other : String → Bool} {s : Symbol}
    (hread : ofToken isRule s.text = s) (hfewer : ∀ name, other name = true → isRule name = true)
    (hkept : ∀ name, s = .nonterminal name → other name = true) : ofToken other s.text = s := by
  cases s with
  | terminal category => exact ofToken_placeholder _ category
  | nonterminal name =>
    obtain ⟨-, hbraced, -⟩ := ofToken_eq_nonterminal_iff.mp hread
    exact ofToken_eq_nonterminal_iff.mpr ⟨rfl, hbraced, hkept name rfl⟩
  | literal text =>
    have hrule : isBraced text.toList = false → other text = false := by
      intro hbraced
      by_contra hother
      have hname := ofToken_eq_nonterminal_iff.mpr
        ⟨rfl, hbraced, hfewer text (by simpa using hother)⟩
      exact absurd (hread.symm.trans hname) (by simp)
    rw [Symbol.text, ofToken] at hread ⊢
    cases hbraced : isBraced text.toList with
    | true => simpa [hbraced] using hread
    | false => simp [hrule hbraced]

/-- The rules that are kept refer to what they referred to before. -/
theorem Rules.refersTo_iff_of_kept {rules kept : Rules} {isKept : String → Bool}
    (hkept : ∀ name, kept[name]? = if isKept name then rules[name]? else none)
    {name next : String} :
    kept.RefersTo name next ↔ isKept name = true ∧ rules.RefersTo name next := by
  simp only [RefersTo, mem_references_iff, alternatives, Std.ExtTreeMap.getD_eq_getD_getElem?,
    hkept]
  cases isKept name <;> simp

namespace Grammar

variable {g h : Grammar}

/-! ### Leaving out rules -/

/-- `g.Restricts isKept tokens`: these are the tokens of the rules of the grammar that are kept,
and the kept rules refer to kept rules only. -/
structure Restricts (g : Grammar) (isKept : String → Bool) (tokens : Tokens) : Prop where
  getElem?_eq : ∀ name, tokens[name]? = if isKept name then g.rules.tokens[name]? else none
  closed : ∀ name next, isKept name = true → g.rules.RefersTo name next → isKept next = true

namespace Restricts

variable {isKept : String → Bool} {tokens : Tokens}

theorem contains (hr : g.Restricts isKept tokens) (name : String) :
    tokens.contains name = (isKept name && g.rules.contains name) := by
  rw [Std.ExtTreeMap.contains_eq_isSome_getElem?, hr.getElem?_eq, ← contains_tokens g.rules,
    Std.ExtTreeMap.contains_eq_isSome_getElem?]
  cases isKept name <;> rfl

/-- The rules that are kept hold the symbols that they held before. -/
theorem getElem?_classify (hr : g.Restricts isKept tokens) (name : String) :
    tokens.classify[name]? = if isKept name then g.rules[name]? else none := by
  rw [RandomSentences.getElem?_classify, hr.getElem?_eq]
  by_cases hkept : isKept name = true
  · rw [if_pos hkept, if_pos hkept, getElem?_tokens, Option.map_map]
    cases hrule : g.rules[name]? with
    | none => rfl
    | some alternatives =>
      rw [Option.map_some, Option.some_inj, Function.comp_apply, List.map_map]
      refine map_ofToken_text fun alternative ha s hs => ?_
      have hread := (g.wellFormed.ofToken_text name alternatives hrule alternative ha s hs).1
      refine Symbol.ofToken_text_of_fewer hread (fun other hother => ?_) ?_
      · rw [hr.contains, Bool.and_eq_true] at hother
        exact hother.2
      · -- a name that a kept rule refers to is kept, and it has a rule
        rintro next rfl
        rw [hr.contains, Bool.and_eq_true]
        exact ⟨hr.closed name next hkept (isReferencedBy_of_mem hrule ha hs),
          (ofToken_eq_nonterminal_iff.mp hread).2.2⟩
  · rw [if_neg hkept, if_neg hkept, Option.map_none]

theorem fault?_eq_none (hr : g.Restricts isKept tokens) : tokens.fault? = none := by
  rw [fault?_eq_none_iff]
  intro name written hwritten
  rw [hr.getElem?_eq, Option.ite_none_right_eq_some] at hwritten
  exact fault?_eq_none_iff.mp g.wellFormed.fault?_tokens name written hwritten.2

theorem cycle?_eq_none (hr : g.Restricts isKept tokens) : tokens.classify.cycle? = none := by
  rw [Rules.cycle?_eq_none_iff]
  intro name hcycle
  refine Rules.not_transGen_of_wellFounded g.wellFounded name (hcycle.lift id fun _ _ hrefers => ?_)
  exact ((Rules.refersTo_iff_of_kept hr.getElem?_classify).mp hrefers).2

/-- The kept rules are the rules of a grammar, if the start symbol is kept. -/
theorem exists_ofTokens (hr : g.Restricts isKept tokens) (hwords : tokens.AreWords)
    (hstart : isKept g.start = true) :
    ∃ h, ofTokens g.start tokens hwords = .ok h ∧ h.start = g.start ∧
      h.rules = tokens.classify := by
  have hmem : g.start ∈ tokens := by
    rw [← Std.ExtTreeMap.contains_iff_mem, hr.contains, hstart, Bool.true_and]
    exact g.start_mem
  obtain ⟨h, hbuilt⟩ : ∃ h, ofTokens g.start tokens hwords = .ok h :=
    exists_ofTokens_eq_ok_iff.mpr ⟨hmem, hr.fault?_eq_none, hr.cycle?_eq_none⟩
  exact ⟨h, hbuilt, (ofTokens_eq_ok_iff.mp hbuilt).2⟩

end Restricts

/-! ### The rules that a symbol reaches -/

/-- `g.Reaches s name`: references lead from the symbol to the name. -/
def Reaches (g : Grammar) (s : Symbol) (name : String) : Prop :=
  ∃ first, s = .nonterminal first ∧ Relation.ReflTransGen g.rules.RefersTo first name

/-- A symbol reaches what the symbols of its rule reach. -/
theorem Reaches.of_mem {name next : String} {alternatives : List Alternative}
    {alternative : Alternative} {s : Symbol} (hrule : g.rules[name]? = some alternatives)
    (ha : alternative ∈ alternatives) (hs : s ∈ alternative) (h : g.Reaches s next) :
    g.Reaches (.nonterminal name) next := by
  obtain ⟨first, rfl, hled⟩ := h
  exact ⟨name, rfl, .head (isReferencedBy_of_mem hrule ha hs) hled⟩

variable {γ : Type} [ChoiceSource γ]

/-- Grammars that agree on the rules that a symbol reaches derive it alike. -/
theorem derive_congr {s : Symbol}
    (hagree : ∀ name, g.Reaches s name → g.rules[name]? = h.rules[name]?) (source : γ) :
    g.derive s source = h.derive s source := by
  induction s using g.wellFounded_isPart.induction generalizing source with
  | _ s ih =>
    cases s with
    | terminal category => rw [derive_terminal, derive_terminal]
    | literal text => rw [derive_literal, derive_literal]
    | nonterminal name =>
      have hname := hagree name ⟨name, rfl, .refl⟩
      cases hrule : g.rules[name]? with
      | none =>
        rw [derive_nonterminal_of_not_mem g source hrule,
          derive_nonterminal_of_not_mem h source (hname.symm.trans hrule)]
      | some alternatives =>
        rw [derive_nonterminal g source hrule,
          derive_nonterminal h source (hname.symm.trans hrule)]
        congr 1
        rw [← List.map_uncurry_zip_eq_zipWith, ← List.map_uncurry_zip_eq_zipWith]
        refine List.map_congr_left fun part hpart => ?_
        have hs := (List.of_mem_zip hpart).1
        have hmem := List.getElem_mem (l := alternatives)
          (ChoiceSource.index source alternatives.length (g.length_pos_of_getElem? hrule)).1.isLt
        exact ih part.1 ⟨name, alternatives, _, rfl, hrule, hmem, hs⟩
          (fun next hnext => hagree next (hnext.of_mem hrule hmem hs)) part.2

/-- Grammars that agree on the rules that a symbol reaches expand it alike, with every store. -/
theorem expandSymbol_congr {s : Symbol}
    (hagree : ∀ name, g.Reaches s name → g.rules[name]? = h.rules[name]?) (source : γ)
    {σ : Type} [WordStore σ] :
    (g.expandSymbol s source : Asking σ String) = h.expandSymbol s source := by
  rw [expandSymbol, expandSymbol, derive_congr hagree]

/-! ### Drafts of a grammar -/

/-- `g.BuiltFrom draft`: the grammar was built from drafts and merged, and these are the texts that
its rules were given as. A merged grammar has the texts of both, where those of the second grammar
count for the names that both have. -/
inductive BuiltFrom : Grammar → Draft → Prop
  | ofRules {start : String} {draft : Draft} {g : Grammar} (hbuilt : ofRules start draft = .ok g) :
      BuiltFrom g draft
  | merge {g h m : Grammar} {first second : Draft} (hg : BuiltFrom g first)
      (hh : BuiltFrom h second) (hm : g.merge h = .ok m) : BuiltFrom m (first ++ second)

/-- The grammar of a file is built from the texts that the file gives its rules. -/
theorem BuiltFrom.of_parse {text : String} (hparse : parse text = .ok g) :
    ∃ file, GrammarText.read text = .ok file ∧ g.BuiltFrom file.rules := by
  rw [parse] at hparse
  split at hparse
  · rename_i file hread
    exact ⟨file, hread, .ofRules hparse⟩
  · simp at hparse

/-- The draft without the rules that the start symbol of a grammar does not reach. -/
def prune (g : Grammar) (draft : Draft) : Draft :=
  draft.filter fun entry => !g.unreachable.contains entry.1

end Grammar

namespace Draft

theorem given?_filter (isKept : String → Bool) (draft : Draft) (name : String) :
    given? (draft.filter fun entry => isKept entry.1) name =
      if isKept name then draft.given? name else none := by
  rw [given?, given?, ← List.filter_reverse]
  induction draft.reverse with
  | nil => simp
  | cons entry entries ih =>
    obtain ⟨other, alternatives⟩ := entry
    by_cases hkept : isKept other = true
    · rw [List.filter_cons_of_pos (by exact hkept), List.lookup_cons, List.lookup_cons, ih]
      by_cases hname : name = other
      · simp [hname, hkept]
      · simp [beq_false_of_ne hname]
    · rw [List.filter_cons_of_neg (by exact hkept), ih, List.lookup_cons]
      by_cases hname : name = other
      · simp [hname, hkept]
      · simp [beq_false_of_ne hname]

end Draft

namespace Grammar

variable {g : Grammar} {draft : Draft}

/-- The tokens of the texts that a grammar was built from are the tokens of its rules. -/
theorem BuiltFrom.ofPairs_eq_tokens (hg : g.BuiltFrom draft) :
    Tokens.ofPairs draft = g.rules.tokens := by
  induction hg with
  | ofRules hbuilt => rw [tokens_ofRules hbuilt]
  | merge _ _ hm ihg ihh => rw [Draft.ofPairs_append, ihg, ihh, tokens_merge hm]

/-- A rule is kept by pruning exactly if the start symbol reaches it, or if there is no such
rule. -/
theorem isKept_iff {name : String} :
    (!g.unreachable.contains name) = true ↔
      (name ∈ g.rules → g.Reaches g.startSymbol name) := by
  have hreaches : g.Reaches g.startSymbol name ↔
      Relation.ReflTransGen g.rules.RefersTo g.start name := by
    simp [Reaches, startSymbol]
  rw [hreaches, Bool.not_eq_true', ← Bool.not_eq_true, List.contains_iff_mem, mem_unreachable_iff]
  tauto

/-- A pruned draft holds the tokens of the rules that are reached, and those refer to each other
only. -/
theorem restricts_prune (hg : g.BuiltFrom draft) :
    g.Restricts (fun name => !g.unreachable.contains name) (Tokens.ofPairs (g.prune draft)) := by
  refine ⟨fun name => ?_, fun name next hname hrefers => ?_⟩
  · rw [← hg.ofPairs_eq_tokens, Draft.getElem?_ofPairs, Draft.getElem?_ofPairs, prune,
      Draft.given?_filter fun name => !g.unreachable.contains name]
    split <;> rfl
  · rw [isKept_iff] at hname ⊢
    obtain ⟨first, hfirst, hled⟩ := hname (Rules.mem_of_isReferencedBy hrefers)
    exact fun _ => ⟨first, hfirst, hled.tail hrefers⟩

/-- `g.IsPruned pruned`: the second grammar has the start symbol of the first and exactly the rules
that the first one's start symbol reaches. -/
structure IsPruned (g pruned : Grammar) : Prop where
  start_eq : pruned.start = g.start
  getElem?_eq : ∀ name, pruned.rules[name]? =
    if !g.unreachable.contains name then g.rules[name]? else none

namespace IsPruned

variable {pruned : Grammar}

theorem mem_rules_iff (hp : g.IsPruned pruned) {name : String} :
    name ∈ pruned.rules ↔ name ∈ g.rules ∧ name ∉ g.unreachable := by
  rw [Std.ExtTreeMap.mem_iff_isSome_getElem?, hp.getElem?_eq,
    Std.ExtTreeMap.mem_iff_isSome_getElem?]
  by_cases h : name ∈ g.unreachable <;> simp [h]

theorem rule?_eq (hp : g.IsPruned pruned) {name : String} (hname : name ∈ pruned.rules) :
    pruned.rule? name = g.rule? name := by
  rw [rule?, rule?, hp.getElem?_eq, if_pos]
  simpa using (hp.mem_rules_iff.mp hname).2

/-- What the start symbol reached in the grammar, it reaches in the pruned grammar. -/
theorem reflTransGen (hp : g.IsPruned pruned) {name : String}
    (h : Relation.ReflTransGen g.rules.RefersTo g.start name) :
    Relation.ReflTransGen pruned.rules.RefersTo pruned.start name := by
  rw [hp.start_eq]
  induction h with
  | refl => exact .refl
  | tail hled hrefers ih =>
    have hkept := isKept_iff.mpr fun _ => ⟨g.start, rfl, hled⟩
    exact ih.tail ((Rules.refersTo_iff_of_kept hp.getElem?_eq).mpr ⟨hkept, hrefers⟩)

theorem unreachable_eq_nil (hp : g.IsPruned pruned) : pruned.unreachable = [] := by
  refine List.eq_nil_iff_forall_not_mem.mpr fun name hname => ?_
  obtain ⟨hmem, hnot⟩ := mem_unreachable_iff.mp hname
  obtain ⟨hrule, hkept⟩ := hp.mem_rules_iff.mp hmem
  obtain ⟨first, hfirst, hled⟩ := isKept_iff.mp (by simpa using hkept) hrule
  obtain rfl : g.start = first := by simpa [startSymbol] using hfirst
  exact hnot (hp.reflTransGen hled)

/-- The start symbol is expanded alike with the rules that are left out and without them. -/
theorem expandSymbol_eq (hp : g.IsPruned pruned) {γ : Type} [ChoiceSource γ] (source : γ)
    {σ : Type} [WordStore σ] :
    (pruned.expandSymbol pruned.startSymbol source : Asking σ String) =
      g.expandSymbol g.startSymbol source := by
  have hstart : pruned.startSymbol = g.startSymbol := by rw [startSymbol, startSymbol, hp.start_eq]
  rw [hstart]
  refine (expandSymbol_congr (fun name hreaches => ?_) source).symm
  rw [hp.getElem?_eq, if_pos (isKept_iff.mpr fun _ => hreaches)]

end IsPruned

/-- **Rules that are not reached do not matter.** Without them, the texts that a grammar was built
from are those of a grammar in which every rule is reached and holds the symbols that it held
before, and which makes the same sentence of every seed, asking the same questions of every store.
More generally, grammars that agree on the rules that a symbol reaches expand it alike. -/
theorem exists_ofRules_pruned (hg : g.BuiltFrom draft) :
    (∃ pruned, ofRules g.start (g.prune draft) = .ok pruned ∧
      pruned.unreachable = [] ∧
      (∀ name, name ∈ pruned.ruleNames ↔ name ∈ g.ruleNames ∧ name ∉ g.unreachable) ∧
      (∀ name ∈ pruned.ruleNames, pruned.rule? name = g.rule? name) ∧
      ∀ (seed : UInt64) {σ : Type} [WordStore σ] (store : σ),
        pruned.generateSeeded seed store = g.generateSeeded seed store ∧
        (pruned.generateSeeded seed (Logged.mk store [])).2.history =
          (g.generateSeeded seed (Logged.mk store [])).2.history) ∧
    ∀ (other : Grammar) (s : Symbol),
      (∀ name, g.Reaches s name → g.rule? name = other.rule? name) →
      ∀ {γ : Type} [ChoiceSource γ] (source : γ) {σ : Type} [WordStore σ] (store : σ),
        g.expandSymbol s source store = other.expandSymbol s source store := by
  refine ⟨?_, fun other s hagree γ _ source σ _ store => ?_⟩
  · have hr := restricts_prune hg
    have hstart : (!g.unreachable.contains g.start) = true :=
      isKept_iff.mpr fun _ => ⟨g.start, rfl, .refl⟩
    obtain ⟨pruned, hbuilt, hstart, hrules⟩ :=
      hr.exists_ofTokens (Tokens.areWords_ofPairs (g.prune draft)) hstart
    have hp : g.IsPruned pruned := ⟨hstart, fun name => by rw [hrules, hr.getElem?_classify]⟩
    have hsentence : ∀ (seed : UInt64) {σ : Type} [WordStore σ],
        (pruned.generateSeeded seed : Asking σ String) = g.generateSeeded seed := by
      intro seed σ _
      rw [generateSeeded, generateSeeded, generate, generate, hp.expandSymbol_eq]
    refine ⟨pruned, hbuilt, hp.unreachable_eq_nil, fun name => ?_, fun name hname => ?_, ?_⟩
    · rw [ruleNames, ruleNames, Std.ExtTreeMap.mem_keys, Std.ExtTreeMap.mem_keys, hp.mem_rules_iff]
    · exact hp.rule?_eq (Std.ExtTreeMap.mem_keys.mp hname)
    · intro seed σ _ store
      rw [hsentence, hsentence]
      exact ⟨rfl, rfl⟩
  · rw [expandSymbol_congr hagree]

/-- The rules of a sentence about animals, and of a moral that is never told. -/
def fable : Draft :=
  [("S", ["the Animal sleeps", "Pair"]), ("Pair", ["\x7bnouns\x7d Animal"]),
    ("Animal", ["fox", "old \x7bnouns\x7d"]), ("Moral", ["never S"])]

/-- The moral, which names the start symbol but is named nowhere, can be left out, and an animal is
told alike wherever its rule stands. -/
theorem exists_ofRules_pruned_fable :
    ∃ g, ofRules "S" fable = .ok g ∧ g.unreachable = ["Moral"] ∧
      (∃ pruned, ofRules "S" fable.dropLast = .ok pruned ∧ pruned.unreachable = [] ∧
        pruned.generateSeeded 7 (MemoryStore.seeded 3) =
          g.generateSeeded 7 (MemoryStore.seeded 3)) ∧
      ∃ other, ofRules "Animal" (fable.filter fun entry => entry.1 == "Animal") = .ok other ∧
        g.expandSymbol (.nonterminal "Animal") (NumberStream.ofSeed 7) (MemoryStore.seeded 3) =
          other.expandSymbol (.nonterminal "Animal") (NumberStream.ofSeed 7)
            (MemoryStore.seeded 3) := by
  have hg : (ofRules "S" fable).isOk = true := by decide +kernel
  have hother : (ofRules "Animal" (fable.filter fun entry => entry.1 == "Animal")).isOk = true := by
    decide +kernel
  have hunreachable : (resultOf _ hg).unreachable = ["Moral"] := by decide +kernel +revert
  have hanimal : (resultOf _ hg).rule? "Animal" = (resultOf _ hother).rule? "Animal" := by
    decide +kernel +revert
  have hnothing : (resultOf _ hg).rules.references "Animal" = [] := by decide +kernel +revert
  obtain ⟨⟨pruned, hbuilt, hreached, -, -, hsame⟩, hagree⟩ :=
    exists_ofRules_pruned (.ofRules (eq_ok_resultOf _ hg))
  rw [prune, hunreachable] at hbuilt
  refine ⟨_, eq_ok_resultOf _ hg, hunreachable, ⟨pruned, hbuilt, hreached, (hsame 7 _).1⟩,
    _, eq_ok_resultOf _ hother, hagree _ _ ?_ _ _⟩
  rintro name ⟨first, hfirst, hled⟩
  obtain rfl : "Animal" = first := by simpa using hfirst
  rcases hled.cases_head with rfl | ⟨next, hnext, -⟩
  · exact hanimal
  · -- the rule of an animal refers to nothing
    rw [Rules.RefersTo, hnothing] at hnext
    exact absurd hnext List.not_mem_nil

end Grammar

end RandomSentences
