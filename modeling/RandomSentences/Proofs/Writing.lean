import RandomSentences.Proofs.Merge
import RandomSentences.Grammar.English

/-!
# Grammars written out and read again

A symbol's token does not say of what kind the symbol is: a reference and a literal are both written
as their text. Yet nothing is lost when the rules of a grammar are written out, as the names and
texts that `Grammar.ofRules` takes. In a grammar, a symbol is what its own token is read as, every
token is a word between blanks, and no alternative is without symbols; all of this is part of what
it means for rules to be well formed.

`Grammar.written` are the rules of a grammar written out, each alternative with single spaces
between its tokens. `Grammar.ofRules_perm_written` says that reading them gives the grammar again,
whatever the order in which the rules are given, and that each symbol is read off its token alone.
On the way, `Rules.WellFormed.classify_tokens` says the same of tokens, which is what merging rests
on.
-/

namespace RandomSentences

/-! ### Tokens -/

/-- Reading tokens gives back the alternatives that they are the tokens of, if it gives back each
of their symbols. -/
theorem map_ofToken_text {isRule : String → Bool} {alternatives : List Alternative}
    (h : ∀ alternative ∈ alternatives, ∀ s ∈ alternative, Symbol.ofToken isRule s.text = s) :
    (alternatives.map fun alternative =>
      (alternative.map Symbol.text).map (Symbol.ofToken isRule)) = alternatives := by
  refine (List.map_congr_left fun alternative ha => ?_).trans (List.map_id alternatives)
  rw [List.map_map]
  exact (List.map_congr_left fun s hs => h alternative ha s hs).trans (List.map_id alternative)

/-- Writing the symbols that tokens are read as gives back the tokens. -/
theorem Tokens.tokens_classify (tokens : Tokens) : tokens.classify.tokens = tokens := by
  refine Std.ExtTreeMap.ext_getElem? fun name => ?_
  rw [getElem?_tokens, getElem?_classify, Option.map_map]
  refine (Option.map_congr fun alternatives _ => ?_).trans Option.map_id'
  simp [Function.comp_def, text_ofToken]

namespace Rules.WellFormed

variable {rules : Rules}

/-- Well-formed rules have no fault as tokens. -/
theorem fault?_tokens (h : rules.WellFormed) : rules.tokens.fault? = none := by
  rw [fault?_eq_none_iff]
  intro name written hwritten
  rw [getElem?_tokens] at hwritten
  obtain ⟨alternatives, hrule, rfl⟩ := Option.map_eq_some_iff.mp hwritten
  refine ⟨by simpa using h.ne_nil name alternatives hrule, fun tokens htokens => ?_⟩
  obtain ⟨alternative, ha, rfl⟩ := List.mem_map.mp htokens
  refine ⟨by simpa using h.alternative_ne_nil name alternatives hrule alternative ha, ?_⟩
  intro token htoken
  obtain ⟨s, hs, rfl⟩ := List.mem_map.mp htoken
  exact (h.ofToken_text name alternatives hrule alternative ha s hs).2.1

/-- The tokens of well-formed rules are read as the symbols that they were written for. -/
theorem classify_tokens (h : rules.WellFormed) : rules.tokens.classify = rules := by
  have hnames : rules.tokens.contains = rules.contains := funext fun name => contains_tokens ..
  refine Std.ExtTreeMap.ext_getElem? fun name => ?_
  rw [getElem?_classify, getElem?_tokens, Option.map_map, hnames]
  refine (Option.map_congr fun alternatives hrule => ?_).trans Option.map_id'
  have hrule : rules[name]? = some alternatives := by simpa using hrule
  rw [Function.comp_apply, List.map_map]
  refine map_ofToken_text fun alternative ha s hs => ?_
  exact (h.ofToken_text name alternatives hrule alternative ha s hs).1

end Rules.WellFormed

/-! ### Drafts -/

namespace Draft

variable {draft : Draft} {name : String}

theorem given?_append (first second : Draft) (name : String) :
    given? (first ++ second) name = (second.given? name).or (first.given? name) := by
  rw [given?, List.reverse_append, List.lookup_append, given?, given?]

theorem ofPairs_append (first second : Draft) :
    Tokens.ofPairs (first ++ second) = Tokens.ofPairs first ∪ Tokens.ofPairs second := by
  refine Std.ExtTreeMap.ext_getElem? fun name => ?_
  rw [Std.ExtTreeMap.getElem?_union, getElem?_ofPairs, getElem?_ofPairs, getElem?_ofPairs,
    given?_append, Option.map_or]

/-- Where no two entries have the same name, every entry can be looked up. -/
theorem lookup_eq_some_of_mem {alternatives : List String} (hnodup : (draft.map Prod.fst).Nodup)
    (h : (name, alternatives) ∈ draft) : draft.lookup name = some alternatives := by
  induction draft with
  | nil => exact absurd h List.not_mem_nil
  | cons entry entries ih =>
    obtain ⟨other, given⟩ := entry
    rw [List.map_cons, List.nodup_cons] at hnodup
    rw [List.lookup_cons]
    rcases List.mem_cons.mp h with heq | hlater
    · obtain ⟨rfl, rfl⟩ : name = other ∧ alternatives = given := by simpa using heq
      rw [beq_self_eq_true]
    · have hne : name ≠ other := by
        rintro rfl
        exact hnodup.1 (List.mem_map.mpr ⟨_, hlater, rfl⟩)
      rw [beq_false_of_ne hne]
      exact ih hnodup.2 hlater

/-- An entry counts if no other entry has its name. -/
theorem given?_eq_some_of_mem {alternatives : List String}
    (hnodup : (draft.map Prod.fst).Nodup) (h : (name, alternatives) ∈ draft) :
    draft.given? name = some alternatives := by
  refine lookup_eq_some_of_mem ?_ (List.mem_reverse.mpr h)
  rw [List.map_reverse]
  exact List.nodup_reverse.mpr hnodup

/-- A name that no entry has is given nothing. -/
theorem given?_eq_none_of_not_mem (h : name ∉ draft.map Prod.fst) : draft.given? name = none := by
  rw [given?, List.lookup_eq_none_iff]
  intro entry hentry
  refine bne_iff_ne.mpr ?_
  rintro rfl
  exact h (List.mem_map_of_mem (List.mem_reverse.mp hentry))

end Draft

/-! ### Grammars -/

namespace Grammar

variable {g : Grammar}

/-- The tokens of a grammar are those of the draft that it was built from. -/
theorem tokens_ofRules {start : String} {draft : Draft} (hg : ofRules start draft = .ok g) :
    g.rules.tokens = Tokens.ofPairs draft := by
  rw [ofRules, ofTokens_eq_ok_iff] at hg
  rw [hg.2.2, Tokens.tokens_classify]

/-- The tokens of a merged grammar are those of both grammars, where those of the second win. -/
theorem tokens_merge {h m : Grammar} (hm : g.merge h = .ok m) :
    m.rules.tokens = g.rules.tokens ∪ h.rules.tokens := by
  rw [(merge_eq_ok_iff.mp hm).2.2, Tokens.tokens_classify]

/-- The tokens of a grammar's rules are read as the grammar. -/
theorem ofTokens_eq_ok_of_eq_tokens {tokens : Tokens} (hwords : tokens.AreWords)
    (h : tokens = g.rules.tokens) : ofTokens g.start tokens hwords = .ok g := by
  have hread : tokens.classify = g.rules := by rw [h, g.wellFormed.classify_tokens]
  refine ofTokens_eq_ok_iff.mpr ⟨⟨?_, ?_, ?_⟩, rfl, hread.symm⟩
  · exact mem_iff_mem_classify.mp (hread ▸ g.start_mem)
  · rw [h, g.wellFormed.fault?_tokens]
  · rw [hread, Rules.cycle?_eq_none_iff]
    exact Rules.not_transGen_of_wellFounded g.wellFounded

/-- The rules of a grammar, with each alternative written as the tokens of its symbols with single
spaces between them. -/
def written (g : Grammar) : Draft :=
  g.rules.toList.map fun (name, alternatives) =>
    (name, alternatives.map fun alternative => " ".intercalate (alternative.map Symbol.text))

theorem map_fst_written (g : Grammar) : g.written.map Prod.fst = g.ruleNames := by
  rw [written, List.map_map, ruleNames, ← Std.ExtTreeMap.map_fst_toList_eq_keys]
  rfl

/-- In whatever order the rules of a grammar are written out, each name is given its
alternatives. -/
theorem given?_of_perm_written {draft : Draft} (h : draft.Perm g.written) (name : String) :
    draft.given? name = g.rules[name]?.map fun alternatives =>
      alternatives.map fun alternative => " ".intercalate (alternative.map Symbol.text) := by
  have hnames : (draft.map Prod.fst).Perm g.ruleNames := map_fst_written g ▸ h.map Prod.fst
  cases hrule : g.rules[name]? with
  | some alternatives =>
    refine Draft.given?_eq_some_of_mem (hnames.nodup_iff.mpr Std.ExtTreeMap.nodup_keys) ?_
    refine h.mem_iff.mpr (List.mem_map.mpr ⟨(name, alternatives), ?_, rfl⟩)
    exact Std.ExtTreeMap.mem_toList_iff_getElem?_eq_some.mpr hrule
  | none =>
    refine Draft.given?_eq_none_of_not_mem fun hmem => ?_
    have hmem : name ∈ g.rules := Std.ExtTreeMap.mem_keys.mp (hnames.mem_iff.mp hmem)
    rw [Std.ExtTreeMap.mem_iff_isSome_getElem?, hrule] at hmem
    exact Bool.noConfusion hmem

/-- The words of the rules that are written out are the tokens of their symbols. -/
theorem ofPairs_of_perm_written {draft : Draft} (h : draft.Perm g.written) :
    Tokens.ofPairs draft = g.rules.tokens := by
  refine Std.ExtTreeMap.ext_getElem? fun name => ?_
  rw [Draft.getElem?_ofPairs, given?_of_perm_written h, getElem?_tokens, Option.map_map]
  refine Option.map_congr fun alternatives hrule => ?_
  have hrule : g.rules[name]? = some alternatives := by simpa using hrule
  rw [Function.comp_apply, List.map_map]
  refine List.map_congr_left fun alternative ha => Text.words_intercalate fun token htoken => ?_
  obtain ⟨s, hs, rfl⟩ := List.mem_map.mp htoken
  exact (g.wellFormed.ofToken_text name alternatives hrule alternative ha s hs).2.2

/-- In whatever order the rules of a grammar are written out, they are read as the grammar. -/
theorem ofRules_of_perm_written {draft : Draft} (h : draft.Perm g.written) :
    ofRules g.start draft = .ok g :=
  ofTokens_eq_ok_of_eq_tokens _ (ofPairs_of_perm_written h)

/-- **A grammar that is written out is read as itself.** In whatever order its rules are given, they
make a grammar, and this is the grammar that was written out: it has the same start symbol and in
every rule the same symbols, so everything that can be said of the one can be said of the other.
And given the names of the rules, the token of each symbol is resolved as the symbol. -/
theorem ofRules_perm_written (g : Grammar) :
    (∀ draft : Draft, draft.Perm g.written → ofRules g.start draft = .ok g) ∧
      ∀ name alternatives, g.rule? name = some alternatives →
        ∀ alternative ∈ alternatives, ∀ s ∈ alternative, g.resolveToken s.text = .ok s := by
  refine ⟨fun draft => ofRules_of_perm_written, ?_⟩
  intro name alternatives hrule alternative ha s hs
  obtain ⟨hread, hfault, -⟩ := g.wellFormed.ofToken_text name alternatives hrule alternative ha s hs
  rw [resolveToken, hfault, hread]

/-- A rule that asks who sees something, and a rule of a name that no token refers to. -/
def riddle : Draft :=
  [("S", ["who  Sees\tthe \x7bnouns\x7d"]), ("\x7bspare", ["S", "who knows"]), ("Sees", ["sees"])]

/-- The riddle is written out in the order of names, with single spaces, and read backwards; the
token that was read as a reference is resolved as one. -/
theorem ofRules_perm_written_riddle :
    ∃ g, ofRules "S" riddle = .ok g ∧
      g.written = [("S", ["who Sees the \x7bnouns\x7d"]), ("Sees", ["sees"]),
        ("\x7bspare", ["S", "who knows"])] ∧
      g.written.reverse.Perm g.written ∧ ofRules "S" g.written.reverse = .ok g ∧
      Symbol.text (.nonterminal "Sees") = "Sees" ∧
      g.resolveToken "Sees" = .ok (.nonterminal "Sees") := by
  have hg : (ofRules "S" riddle).isOk = true := by decide +kernel
  have hwritten : (resultOf _ hg).written = [("S", ["who Sees the \x7bnouns\x7d"]),
      ("Sees", ["sees"]), ("\x7bspare", ["S", "who knows"])] := by
    decide +kernel +revert
  have hrule : (resultOf _ hg).rule? "S" = some [[.literal "who", .nonterminal "Sees",
      .literal "the", .terminal .nouns]] := by
    decide +kernel +revert
  have hstart : (resultOf _ hg).start = "S" := (ofTokens_eq_ok_iff.mp (eq_ok_resultOf _ hg)).2.1
  obtain ⟨hback, htoken⟩ := ofRules_perm_written (resultOf _ hg)
  have hperm := (resultOf _ hg).written.reverse_perm
  refine ⟨_, eq_ok_resultOf _ hg, hwritten, hperm, ?_, rfl, ?_⟩
  · rw [← hback _ hperm, hstart]
  · exact htoken "S" _ hrule _ (List.mem_cons_self ..) (.nonterminal "Sees") (by simp)

end Grammar

end RandomSentences
