import RandomSentences.Proofs.Construction
import RandomSentences.Proofs.Telling

/-!
# Rules and the tokens that name them

There are two ways to expand a rule. A sentence refers to the rule of the start symbol at once; a
token from outside is read first, as the tokens of rules are. For a token that is a rule's name, the
two agree exactly if the token is not braced: braces are reserved for categories, and whether there
is a rule of that name is then not even looked at (`Grammar.resolveToken_of_isBraced`). Nothing
keeps a rule from having such a name, and it can still be the start symbol, but no token refers to
it. `Grammar.resolveToken_ruleName` says this for all rules, and what it means for the start symbol:
a sentence is the finished text of the start symbol's name, if that name is not braced.
-/

namespace RandomSentences.Grammar

variable {g : Grammar} {token : String}

/-! ### Reading a token from outside -/

/-- A token that is not braced is never refused. -/
theorem resolveToken_of_not_isBraced (h : isBraced token.toList = false) :
    g.resolveToken token =
      .ok (if g.rules.contains token then .nonterminal token else .literal token) := by
  have hfault : tokenFault? token = none :=
    tokenFault?_eq_none_iff.mpr fun hbraced => absurd (h.symm.trans hbraced) (by decide)
  rw [resolveToken, hfault, Symbol.ofToken, h]
  rfl

/-- A braced token asks for a word of a category or is refused, whatever the rules are called. -/
theorem resolveToken_of_isBraced (h : isBraced token.toList = true) :
    g.resolveToken token = match bracedCategory token with
      | .ok category => .ok (.terminal category)
      | .error fault => .error (fault.inRule "<input>" token) := by
  rw [resolveToken, tokenFault?, Symbol.ofToken, if_pos h, if_pos h]
  cases bracedCategory token <;> rfl

/-- A rule's name is read as a reference to the rule exactly if it is not braced. -/
theorem resolveToken_eq_nonterminal_iff (h : token ∈ g.ruleNames) :
    g.resolveToken token = .ok (.nonterminal token) ↔ isBraced token.toList = false := by
  constructor
  · intro hread
    by_contra hbraced
    rw [resolveToken_of_isBraced (by simpa using hbraced)] at hread
    cases hcategory : bracedCategory token <;> simp [hcategory] at hread
  · intro hbraced
    have hrule : g.rules.contains token = true :=
      Std.ExtTreeMap.contains_iff_mem.mpr (Std.ExtTreeMap.mem_keys.mp h)
    rw [resolveToken_of_not_isBraced hbraced, if_pos hrule]

/-! ### The start symbol's name -/

theorem start_mem_ruleNames (g : Grammar) : g.start ∈ g.ruleNames :=
  Std.ExtTreeMap.mem_keys.mpr g.start_mem

variable {γ σ : Type} [ChoiceSource γ] [WordStore σ]

/-- A token is expanded as the symbol that it is read as. -/
theorem expandToken_of_resolveToken {s : Symbol} (h : g.resolveToken token = .ok s) (source : γ)
    (store : σ) :
    g.expandToken token source store =
      Prod.map (Except.mapError .store) id (g.expandSymbol s source store) := by
  rw [expandToken, h]
  rfl

/-- A sentence is the finished text of the start symbol. -/
theorem generate_eq_map_expandSymbol (g : Grammar) (source : γ) (store : σ) :
    g.generate source store =
      Prod.map (Except.map finishSentence) id (g.expandSymbol g.startSymbol source store) := by
  rcases h : g.expandSymbol g.startSymbol source store with ⟨cause | text, after⟩
  · exact Asking.bind_of_error _ h
  · exact Asking.bind_of_ok _ h

/-- **A rule is expanded by its name exactly if the name is not braced.** A braced name is read as
the placeholder that it is, or else refused. So if the start symbol's name is not braced, expanding
this name expands the same symbol as generating a sentence, and with the same choices and over the
same store a sentence is what the name is expanded to, finished; or both fail for the same cause. -/
theorem resolveToken_ruleName (g : Grammar) :
    (∀ name ∈ g.ruleNames,
      (g.resolveToken name = .ok (.nonterminal name) ↔ isBraced name.toList = false) ∧
      (isBraced name.toList = true →
        (∃ category : Category, name = category.placeholder ∧
          g.resolveToken name = .ok (.terminal category)) ∨
        ∃ fault : TokenFault, tokenFault? name = some fault ∧
          g.resolveToken name = .error (fault.inRule "<input>" name))) ∧
    (isBraced g.start.toList = false →
      g.resolveToken g.start = .ok g.startSymbol ∧
      ∀ {γ σ : Type} [ChoiceSource γ] [WordStore σ] (source : γ) (store : σ),
        Prod.map (Except.mapError GenerateError.store) id (g.generate source store) =
          Prod.map (Except.map finishSentence) id (g.expandToken g.start source store)) := by
  refine ⟨fun name hname => ⟨resolveToken_eq_nonterminal_iff hname, fun hbraced => ?_⟩,
    fun hbraced => ?_⟩
  · rw [resolveToken_of_isBraced hbraced, tokenFault?, if_pos hbraced]
    cases hcategory : bracedCategory name with
    | ok category => exact .inl ⟨category, eq_placeholder_of_bracedCategory hcategory, rfl⟩
    | error fault => exact .inr ⟨fault, rfl, rfl⟩
  · have hread := (resolveToken_eq_nonterminal_iff g.start_mem_ruleNames).mpr hbraced
    refine ⟨hread, fun source store => ?_⟩
    rw [expandToken_of_resolveToken hread, generate_eq_map_expandSymbol, startSymbol]
    rcases g.expandSymbol (.nonterminal g.start) source store with ⟨cause | text, after⟩ <;> rfl

/-- The rules of a ball: one of them is named like the placeholder that another one asks for. -/
def ballRules : Draft := [
  ("Ball", ["Guest " ++ Category.nouns.placeholder]),
  ("Guest", ["fox"]),
  (Category.nouns.placeholder, ["mask"])]

theorem isOk_ball : (ofRules "Ball" ballRules).isOk = true := by
  decide +kernel

/-- The grammar of a ball. -/
def ball : Grammar :=
  resultOf (ofRules "Ball" ballRules) isOk_ball

/-- At the ball a guest is expanded by its name, and the mask is not. -/
theorem resolveToken_ruleName_ball :
    ("Guest" ∈ ball.ruleNames ∧ ball.resolveToken "Guest" = .ok (.nonterminal "Guest")) ∧
      (Category.nouns.placeholder ∈ ball.ruleNames ∧
        isBraced Category.nouns.placeholder.toList = true ∧
        ((∃ category : Category, Category.nouns.placeholder = category.placeholder ∧
            ball.resolveToken Category.nouns.placeholder = .ok (.terminal category)) ∨
          ∃ fault : TokenFault, tokenFault? Category.nouns.placeholder = some fault ∧
            ball.resolveToken Category.nouns.placeholder =
              .error (fault.inRule "<input>" Category.nouns.placeholder))) ∧
      isBraced ball.start.toList = false ∧
      Prod.map (Except.mapError GenerateError.store) id
          (ball.generate (NumberStream.ofSeed 7) (MemoryStore.seeded 3)) =
        Prod.map (Except.map finishSentence) id
          (ball.expandToken ball.start (NumberStream.ofSeed 7) (MemoryStore.seeded 3)) := by
  have hguest : "Guest" ∈ ball.ruleNames := by decide +kernel
  have hmask : Category.nouns.placeholder ∈ ball.ruleNames := by decide +kernel
  have hbraced := isBraced_placeholder .nouns
  have hstart : isBraced ball.start.toList = false := by decide +kernel
  obtain ⟨hnames, hsentence⟩ := resolveToken_ruleName ball
  refine ⟨⟨hguest, (hnames _ hguest).1.mpr (by decide)⟩,
    ⟨hmask, hbraced, (hnames _ hmask).2 hbraced⟩, hstart, ?_⟩
  exact (hsentence hstart).2 (NumberStream.ofSeed 7) (MemoryStore.seeded 3)

theorem isOk_mask :
    (ofRules Category.nouns.placeholder [(Category.nouns.placeholder, ["fox"])]).isOk = true := by
  decide +kernel

/-- A grammar whose only rule is named like a placeholder. -/
def mask : Grammar :=
  resultOf (ofRules Category.nouns.placeholder [(Category.nouns.placeholder, ["fox"])]) isOk_mask

/-- A sentence of the mask says what is behind it. -/
theorem generate_mask (source : γ) (store : σ) :
    mask.generate source store = (.ok "Fox.", store) := by
  -- there is one alternative, with one symbol, so the source is left no choice
  have hrule : mask.rules[mask.start]? = some [[.literal "fox"]] := by decide +kernel
  have hpick : (ChoiceSource.pick source 1).1 = 0 :=
    Nat.lt_one_iff.mp (ChoiceSource.pick_lt source Nat.one_pos)
  have hpicked : [[Symbol.literal "fox"]][(ChoiceSource.pick source 1).1]? =
      some [.literal "fox"] := by
    rw [hpick]
    rfl
  obtain ⟨part, hpart⟩ := List.length_eq_one_iff.mp
    (ChoiceSource.length_splits (ChoiceSource.pick source 1).2 1)
  have hderive : mask.derive mask.startSymbol source =
      .rule mask.start (ChoiceSource.pick source 1).1 [.literal "fox"] := by
    rw [startSymbol, derive_nonterminal_pick hrule hpicked]
    simp [hpart]
  have htext : mask.expandSymbol mask.startSymbol source store = (.ok "fox", store) := by
    rw [expandSymbol, hderive]
    rfl
  have hfinish : finishSentence "fox" = "Fox." := by decide +kernel
  rw [generate_eq_map_expandSymbol, htext, ← hfinish]
  rfl

/-- The mask itself is taken for a noun, so its rule is not expanded by its name: over a store
without nouns it is only shown. -/
theorem not_resolveToken_ruleName_mask :
    mask.start ∈ mask.ruleNames ∧ mask.resolveToken mask.start = .ok (.terminal .nouns) ∧
      mask.generate (NumberStream.ofSeed 7) (MemoryStore.seeded 3) =
        (.ok "Fox.", MemoryStore.seeded 3) ∧
      mask.expandToken mask.start (NumberStream.ofSeed 7) (MemoryStore.seeded 3) =
        (.ok Category.nouns.placeholder, MemoryStore.seeded 3) ∧
      ¬ ∀ (g : Grammar), ∀ name ∈ g.ruleNames,
        g.resolveToken name = .ok (.nonterminal name) := by
  have hmem := start_mem_ruleNames mask
  have hread : mask.resolveToken mask.start = .ok (.terminal .nouns) := by decide +kernel
  refine ⟨hmem, hread, generate_mask .., ?_, fun hall => ?_⟩
  · rw [expandToken_of_resolveToken hread, expandSymbol, derive_terminal]
    rfl
  · simpa [hread] using hall mask mask.start hmem

end RandomSentences.Grammar
