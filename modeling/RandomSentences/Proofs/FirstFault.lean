import RandomSentences.Proofs.Listing

/-!
# Which fault is reported

A draft may be wrong in several ways at once, and only one of them is reported. A missing start
comes before all else, and a cycle after all else. In between, rules are looked at one by one, in
an order that nothing is known about, and what is reported is the first fault of some faulty rule.

What the first fault of a rule is depends on the rule alone. `TokenFault.IsOf` says which tokens are
faulty and in which way: a name between two braces that is no category's key, or a token that starts
or ends like one between braces and is none. `Draft.FirstFault` goes through the alternatives and
their tokens in order, up to the first that is not sound. Both say in terms of the texts what the
checks compute (`tokenFault?_eq_some_iff`, `ruleFault?_map_words_eq_some_iff`), and
`Grammar.ofRulesBy_error_precedence` says which of all causes a draft is refused for.
-/

namespace RandomSentences

/-! ### Faulty tokens -/

/-- A name between two braces. -/
def enclosed (name : String) : String :=
  String.ofList ('{' :: name.toList ++ ['}'])

/-- Whether a name can be told from the braces around it: it is not empty and holds no brace. -/
def IsEnclosable (name : String) : Prop :=
  name ≠ "" ∧ ∀ c ∈ name.toList, c ≠ '{' ∧ c ≠ '}'

/-- `fault.IsOf token`: what is wrong with the token. -/
inductive TokenFault.IsOf (token : String) : TokenFault → Prop
  /-- It is a name between braces, and there is no category with this key. -/
  | unknownCategory {name : String} (htoken : token = enclosed name) (hname : IsEnclosable name)
      (hkey : ∀ category : Category, name ≠ category.key) : IsOf token (.unknownCategory name)
  /-- It starts with an opening brace or ends with a closing one, but is no name between braces. -/
  | malformed (hbrace : token.toList.head? = some '{' ∨ token.toList.getLast? = some '}')
      (hname : ∀ name, IsEnclosable name → token ≠ enclosed name) : IsOf token .malformed

theorem toList_enclosed (name : String) : (enclosed name).toList = '{' :: name.toList ++ ['}'] := by
  rw [enclosed, String.toList_ofList]

theorem isBraced_enclosed (name : String) : isBraced (enclosed name).toList = true := by
  simp [toList_enclosed, isBraced]

theorem isBraced_iff {token : List Char} :
    isBraced token = true ↔ token.head? = some '{' ∨ token.getLast? = some '}' := by
  simp [isBraced]

/-- The name between two braces is found exactly if it is not empty and holds no brace. -/
theorem inner?_eq_some_iff {token name : List Char} :
    inner? token = some name ↔
      token = '{' :: name ++ ['}'] ∧ name ≠ [] ∧ ∀ c ∈ name, c ≠ '{' ∧ c ≠ '}' := by
  constructor
  · intro h
    obtain rfl := inner?_eq_some h
    refine ⟨rfl, ?_⟩
    simpa [inner?] using h
  · rintro ⟨rfl, hne, hbraces⟩
    simpa [inner?, hne] using hbraces

/-- A token whose name between braces is found is that name between braces. -/
theorem inner?_toList_eq_some_iff {token : String} {name : List Char} :
    inner? token.toList = some name ↔
      token = enclosed (String.ofList name) ∧ IsEnclosable (String.ofList name) := by
  have htoken : token.toList = '{' :: name ++ ['}'] ↔ token = enclosed (String.ofList name) := by
    rw [← String.toList_inj, toList_enclosed, String.toList_ofList]
  have hne : String.ofList name ≠ "" ↔ name ≠ [] := not_congr String.ofList_eq_empty_iff
  rw [inner?_eq_some_iff, htoken, IsEnclosable, hne, String.toList_ofList]

theorem inner?_toList_eq_none_iff {token : String} :
    inner? token.toList = none ↔ ∀ name, IsEnclosable name → token ≠ enclosed name := by
  rw [Option.eq_none_iff_forall_not_mem]
  constructor
  · intro h name hname htoken
    refine h name.toList (inner?_toList_eq_some_iff.mpr ?_)
    rw [String.ofList_toList]
    exact ⟨htoken, hname⟩
  · intro h name hname
    obtain ⟨htoken, henclosable⟩ := inner?_toList_eq_some_iff.mp hname
    exact h _ henclosable htoken

theorem Category.ofKey?_eq_none_iff {text : String} :
    ofKey? text = none ↔ ∀ category : Category, text ≠ category.key := by
  rw [Option.eq_none_iff_forall_not_mem]
  exact forall_congr' fun category => not_congr ofKey?_eq_some_iff

/-- The fault that is found in a token is what is wrong with it. -/
theorem tokenFault?_eq_some_iff {token : String} {fault : TokenFault} :
    tokenFault? token = some fault ↔ fault.IsOf token := by
  constructor
  · intro h
    have hbraced : isBraced token.toList = true := by
      by_contra hnot
      simp [tokenFault?, hnot] at h
    rw [tokenFault?, if_pos hbraced, bracedCategory] at h
    cases hinner : inner? token.toList with
    | none =>
      obtain rfl : .malformed = fault := by simpa [hinner] using h
      exact .malformed (isBraced_iff.mp hbraced) (inner?_toList_eq_none_iff.mp hinner)
    | some name =>
      obtain ⟨htoken, hname⟩ := inner?_toList_eq_some_iff.mp hinner
      cases hkey : Category.ofKey? (String.ofList name) with
      | none =>
        obtain rfl : .unknownCategory (String.ofList name) = fault := by
          simpa [hinner, hkey] using h
        exact .unknownCategory htoken hname (Category.ofKey?_eq_none_iff.mp hkey)
      | some category => simp [hinner, hkey] at h
  · intro h
    cases h with
    | @unknownCategory name htoken hname hkey =>
      have hbraced : isBraced token.toList = true := htoken ▸ isBraced_enclosed name
      have hinner : inner? token.toList = some name.toList :=
        inner?_toList_eq_some_iff.mpr (by rw [String.ofList_toList]; exact ⟨htoken, hname⟩)
      have hnone : Category.ofKey? name = none := Category.ofKey?_eq_none_iff.mpr hkey
      simp [tokenFault?, hbraced, bracedCategory, hinner, hnone]
    | malformed hbrace hname =>
      have hbraced : isBraced token.toList = true := isBraced_iff.mpr hbrace
      have hinner : inner? token.toList = none := inner?_toList_eq_none_iff.mpr hname
      simp [tokenFault?, hbraced, bracedCategory, hinner]

/-- Tokens with a brace at one end, with nothing or with braces between two braces, and with names
that are no keys. -/
example :
    (["\x7b", "\x7d", "\x7b\x7d", "x\x7d", "\x7ba\x7db\x7d", "\x7b\x7bnouns\x7d\x7d"].map
      tokenFault?) = List.replicate 6 (some .malformed) ∧
    (["\x7bnoun\x7d", "\x7bNouns\x7d", "\x7bnouns\x7d", "a\x7bb", "a\x7db"].map tokenFault?) =
      [some (.unknownCategory "noun"), some (.unknownCategory "Nouns"), none, none, none] := by
  decide

/-! ### Faulty rules -/

/-- Whether nothing is wrong with a token. -/
def IsSoundToken (token : String) : Prop :=
  ∀ fault : TokenFault, ¬ fault.IsOf token

/-- Whether an alternative has tokens, and only sound ones. -/
def IsSoundAlternative (alternative : String) : Prop :=
  Text.words alternative ≠ [] ∧ ∀ token ∈ Text.words alternative, IsSoundToken token

/-- `Draft.FirstFault rule alternatives cause`: the first fault of a rule with these alternatives,
in the order of alternatives and of the tokens in each. -/
inductive Draft.FirstFault (rule : String) (alternatives : List String) : GrammarError → Prop
  /-- There is no alternative. -/
  | emptyRule (hnone : alternatives = []) : FirstFault rule alternatives (.emptyRule rule)
  /-- After sound alternatives there is one without tokens. -/
  | emptyAlternative {before after : List String} {alternative : String}
      (halternatives : alternatives = before ++ alternative :: after)
      (hbefore : ∀ earlier ∈ before, IsSoundAlternative earlier)
      (hwords : Text.words alternative = []) :
      FirstFault rule alternatives (.emptyAlternative rule before.length)
  /-- After sound alternatives there is one with a faulty token, after sound ones. -/
  | token {before after : List String} {alternative : String} {earlier later : List String}
      {token : String} {fault : TokenFault}
      (halternatives : alternatives = before ++ alternative :: after)
      (hbefore : ∀ earlier ∈ before, IsSoundAlternative earlier)
      (hwords : Text.words alternative = earlier ++ token :: later)
      (hearlier : ∀ other ∈ earlier, IsSoundToken other) (hfault : fault.IsOf token) :
      FirstFault rule alternatives (fault.inRule rule token)

theorem tokenFault?_eq_none_iff_isSoundToken {token : String} :
    tokenFault? token = none ↔ IsSoundToken token := by
  rw [Option.eq_none_iff_forall_not_mem]
  exact forall_congr' fun fault => not_congr tokenFault?_eq_some_iff

/-- The fault that is found among tokens is that of the first one that is not sound. -/
theorem tokensFault?_eq_some_iff {rule : String} {tokens : List String} {cause : GrammarError} :
    tokensFault? rule tokens = some cause ↔ ∃ earlier token later fault,
      tokens = earlier ++ token :: later ∧ (∀ other ∈ earlier, IsSoundToken other) ∧
        TokenFault.IsOf token fault ∧ cause = fault.inRule rule token := by
  simp only [tokensFault?, List.findSome?_eq_some_iff, Option.map_eq_some_iff,
    Option.map_eq_none_iff, tokenFault?_eq_none_iff_isSoundToken, tokenFault?_eq_some_iff]
  constructor
  · rintro ⟨earlier, token, later, htokens, ⟨fault, hfault, rfl⟩, hearlier⟩
    exact ⟨earlier, token, later, fault, htokens, hearlier, hfault, rfl⟩
  · rintro ⟨earlier, token, later, fault, htokens, hearlier, hfault, rfl⟩
    exact ⟨earlier, token, later, htokens, ⟨fault, hfault, rfl⟩, hearlier⟩

theorem tokensFault?_eq_none_iff (rule : String) {tokens : List String} :
    tokensFault? rule tokens = none ↔ ∀ token ∈ tokens, IsSoundToken token := by
  simp only [tokensFault?, List.findSome?_eq_none_iff, Option.map_eq_none_iff,
    tokenFault?_eq_none_iff_isSoundToken]

/-- An alternative is found sound at every index or at none. -/
theorem alternativeFault?_words_eq_none_iff {rule alternative : String} {index : Nat} :
    alternativeFault? rule index (Text.words alternative) = none ↔
      IsSoundAlternative alternative := by
  rw [alternativeFault?, IsSoundAlternative, ← tokensFault?_eq_none_iff rule]
  split <;> simp_all

/-- The fault that is found among alternatives is that of the first one that is not sound. -/
theorem findSome?_zipIdx_alternativeFault?_iff {rule : String} {alternatives : List String}
    {cause : GrammarError} :
    ((alternatives.map Text.words).zipIdx.findSome? fun (tokens, index) =>
        alternativeFault? rule index tokens) = some cause ↔
      ∃ before alternative after, alternatives = before ++ alternative :: after ∧
        (∀ earlier ∈ before, IsSoundAlternative earlier) ∧
        alternativeFault? rule before.length (Text.words alternative) = some cause := by
  rw [List.zipIdx_map, List.findSome?_map, List.findSome?_eq_some_iff]
  constructor
  · rintro ⟨front, ⟨alternative, index⟩, back, hsplit, hcause, hfront⟩
    obtain ⟨before, rest, rfl, rfl, hrest⟩ := List.zipIdx_eq_append_iff.mp hsplit
    obtain ⟨_, after, rfl, hindex, -⟩ := List.zipIdx_eq_cons_iff.mp hrest.symm
    obtain ⟨rfl, rfl⟩ : alternative = _ ∧ index = 0 + before.length := by simpa using hindex
    refine ⟨before, alternative, after, rfl, fun earlier hearlier => ?_, by simpa using hcause⟩
    obtain ⟨i, hi, rfl⟩ := List.mem_iff_getElem.mp hearlier
    have hnone := hfront (before[i], i) (by simp [List.mem_zipIdx_iff_getElem?, hi])
    exact alternativeFault?_words_eq_none_iff.mp hnone
  · rintro ⟨before, alternative, after, rfl, hbefore, hcause⟩
    refine ⟨before.zipIdx, (alternative, before.length), after.zipIdx (before.length + 1), ?_,
      by simpa using hcause, fun entry hentry => ?_⟩
    · rw [List.zipIdx_append, List.zipIdx_cons, Nat.zero_add]
    · have hmem : entry.1 ∈ before := List.fst_mem_of_mem_zipIdx hentry
      exact alternativeFault?_words_eq_none_iff.mpr (hbefore _ hmem)

/-- The fault that is found in a rule is its first one. -/
theorem ruleFault?_map_words_eq_some_iff {rule : String} {alternatives : List String}
    {cause : GrammarError} :
    ruleFault? rule (alternatives.map Text.words) = some cause ↔
      Draft.FirstFault rule alternatives cause := by
  cases alternatives with
  | nil =>
    constructor
    · intro h
      obtain rfl : .emptyRule rule = cause := by simpa [ruleFault?] using h
      exact .emptyRule rfl
    · intro h
      cases h with
      | emptyRule => rfl
      | emptyAlternative halternatives => simp at halternatives
      | token halternatives => simp at halternatives
  | cons first others =>
    rw [ruleFault?, if_neg (by simp), findSome?_zipIdx_alternativeFault?_iff]
    constructor
    · rintro ⟨before, alternative, after, halternatives, hbefore, hcause⟩
      by_cases hwords : Text.words alternative = []
      · obtain rfl : .emptyAlternative rule before.length = cause := by
          simpa [alternativeFault?, hwords] using hcause
        exact .emptyAlternative halternatives hbefore hwords
      · rw [alternativeFault?, if_neg (by simpa using hwords), tokensFault?_eq_some_iff] at hcause
        obtain ⟨earlier, token, later, fault, htokens, hearlier, hfault, rfl⟩ := hcause
        exact .token halternatives hbefore htokens hearlier hfault
    · intro h
      cases h with
      | emptyRule hnone => simp at hnone
      | @emptyAlternative before after alternative halternatives hbefore hwords =>
        refine ⟨before, alternative, after, halternatives, hbefore, ?_⟩
        simp [alternativeFault?, hwords]
      | @token before after alternative earlier later token fault halternatives hbefore hwords
          hearlier hfault =>
        refine ⟨before, alternative, after, halternatives, hbefore, ?_⟩
        rw [alternativeFault?, if_neg (by simp [hwords]), tokensFault?_eq_some_iff]
        exact ⟨earlier, token, later, fault, hwords, hearlier, hfault, rfl⟩

namespace Draft

variable {draft : Draft} {rule name : String} {alternatives : List String} {cause : GrammarError}

/-- A rule has at most one first fault. -/
theorem FirstFault.unique {other : GrammarError} (h : FirstFault rule alternatives cause)
    (h' : FirstFault rule alternatives other) : cause = other := by
  rw [← ruleFault?_map_words_eq_some_iff] at h h'
  exact Option.some_inj.mp (h.symm.trans h')

/-- What is wrong with a rule taken by itself is neither a missing start nor a cycle. -/
theorem FirstFault.ne (h : FirstFault rule alternatives cause) :
    (∀ start, cause ≠ .missingStart start) ∧ ∀ path, cause ≠ .cycle path := by
  cases h with
  | emptyRule => simp
  | emptyAlternative => simp
  | @token _ _ _ _ _ _ fault => cases fault <;> simp [TokenFault.inRule]

/-- A rule is faulty exactly if it has a first fault. -/
theorem isFaulty_iff_exists_firstFault :
    draft.IsFaulty name ↔ ∃ alternatives, draft.given? name = some alternatives ∧
      ∃ cause, FirstFault name alternatives cause := by
  simp only [isFaulty_iff, getElem?_ofPairs, Option.map_eq_some_iff, Option.ne_none_iff_exists',
    ← ruleFault?_map_words_eq_some_iff]
  constructor
  · rintro ⟨_, ⟨alternatives, hgiven, rfl⟩, hfault⟩
    exact ⟨alternatives, hgiven, hfault⟩
  · rintro ⟨alternatives, hgiven, hfault⟩
    exact ⟨_, ⟨alternatives, hgiven, rfl⟩, hfault⟩

/-- A fault that is met along a listing is the first one of some rule. -/
theorem exists_firstFault_of_listing {listing : Listing (Tokens.ofPairs draft)}
    (h : listing.fault? = some cause) :
    ∃ name alternatives, draft.given? name = some alternatives ∧
      FirstFault name alternatives cause := by
  obtain ⟨⟨name, tokens⟩, hentry, hfault⟩ := List.exists_of_findSome?_eq_some h
  rw [listing.perm.mem_iff, Std.ExtTreeMap.mem_toList_iff_getElem?_eq_some, getElem?_ofPairs,
    Option.map_eq_some_iff] at hentry
  obtain ⟨alternatives, hgiven, rfl⟩ := hentry
  exact ⟨name, alternatives, hgiven, ruleFault?_map_words_eq_some_iff.mp hfault⟩

end Draft

/-! ### What a draft is refused for -/

namespace Grammar

variable {checking searching : Traversal} {start : String} {draft : Draft}

/-- Along listings, as otherwise, a start is looked for first and a cycle last. -/
theorem ofTokensBy_cases (checking searching : Traversal) (start : String) (tokens : Tokens)
    (hwords : tokens.AreWords) :
    (start ∉ tokens ∧
      ofTokensBy checking searching start tokens hwords = .error (.missingStart start)) ∨
    (start ∈ tokens ∧ ∃ cause, (checking.listing tokens).fault? = some cause ∧
      ofTokensBy checking searching start tokens hwords = .error cause) ∨
    (start ∈ tokens ∧ (checking.listing tokens).fault? = none ∧
      ((∃ path, ofTokensBy checking searching start tokens hwords = .error (.cycle path)) ∨
        ∃ g, ofTokensBy checking searching start tokens hwords = .ok g)) := by
  unfold ofTokensBy
  split
  · rename_i hstart
    split
    · rename_i cause hcause
      exact .inr (.inl ⟨hstart, cause, hcause, rfl⟩)
    · rename_i hnone
      refine .inr (.inr ⟨hstart, hnone, ?_⟩)
      split
      · exact .inl ⟨_, rfl⟩
      · exact .inr ⟨_, rfl⟩
  · rename_i hstart
    exact .inl ⟨hstart, rfl⟩

/-- A draft has no start, or is refused for the first fault of some rule, or has no faulty rule. -/
theorem ofRulesBy_cases (checking searching : Traversal) (start : String) (draft : Draft) :
    (draft.given? start = none ∧
      ofRulesBy checking searching start draft = .error (.missingStart start)) ∨
    ((draft.given? start).isSome = true ∧ ∃ name alternatives cause,
      draft.given? name = some alternatives ∧ Draft.FirstFault name alternatives cause ∧
        ofRulesBy checking searching start draft = .error cause) ∨
    ((draft.given? start).isSome = true ∧ (∀ name, ¬ draft.IsFaulty name) ∧
      ((∃ path, ofRulesBy checking searching start draft = .error (.cycle path)) ∨
        ∃ g, ofRulesBy checking searching start draft = .ok g)) := by
  have hmem : start ∈ Tokens.ofPairs draft ↔ (draft.given? start).isSome = true := by
    rw [← Std.ExtTreeMap.contains_iff_mem, Draft.contains_ofPairs]
  rcases ofTokensBy_cases checking searching start _ (Tokens.areWords_ofPairs draft) with
    ⟨hstart, h⟩ | ⟨hstart, cause, hcause, h⟩ | ⟨hstart, hnone, h⟩
  · rw [hmem, Option.not_isSome_iff_eq_none] at hstart
    exact .inl ⟨hstart, h⟩
  · obtain ⟨name, alternatives, hgiven, hfault⟩ := Draft.exists_firstFault_of_listing hcause
    exact .inr (.inl ⟨hmem.mp hstart, name, alternatives, cause, hgiven, hfault, h⟩)
  · have hsound := Draft.not_isFaulty ((Listing.fault?_eq_none_iff _).mp hnone)
    exact .inr (.inr ⟨hmem.mp hstart, hsound, h⟩)

/-- The order of names is one of the orders in which rules may be looked at. -/
theorem ofRulesBy_forwards (start : String) (draft : Draft) :
    ofRulesBy .forwards .forwards start draft = ofRules start draft :=
  ofTokensBy_eq rfl

/-- A missing start is reported exactly if the start has no rule. -/
theorem ofRulesBy_eq_missingStart_iff {name : String} :
    ofRulesBy checking searching start draft = .error (.missingStart name) ↔
      draft.given? start = none ∧ name = start := by
  rcases ofRulesBy_cases checking searching start draft with
    ⟨hstart, h⟩ | ⟨hstart, _, _, cause, -, hfault, h⟩ | ⟨hstart, -, ⟨path, h⟩ | ⟨g, h⟩⟩
  · simp [h, hstart, eq_comm]
  · simp [h, hfault.ne.1, Option.isSome_iff_ne_none.mp hstart]
  · simp [h, Option.isSome_iff_ne_none.mp hstart]
  · simp [h, Option.isSome_iff_ne_none.mp hstart]

/-- If there is a start and some rule is faulty, the first fault of a rule is reported. -/
theorem exists_firstFault_of_isFaulty (checking searching : Traversal)
    (hstart : (draft.given? start).isSome = true)
    (hfaulty : ∃ name, draft.IsFaulty name) :
    ∃ name alternatives cause, draft.given? name = some alternatives ∧
      Draft.FirstFault name alternatives cause ∧
      ofRulesBy checking searching start draft = .error cause := by
  rcases ofRulesBy_cases checking searching start draft with
    ⟨hnone, -⟩ | ⟨-, hreported⟩ | ⟨-, hsound, -⟩
  · exact absurd hnone (Option.isSome_iff_ne_none.mp hstart)
  · exact hreported
  · obtain ⟨name, hname⟩ := hfaulty
    exact absurd hname (hsound name)

/-- A cycle is reported only if there is a start and no rule is faulty. -/
theorem not_isFaulty_of_cycle {path : List String}
    (h : ofRulesBy checking searching start draft = .error (.cycle path)) :
    (draft.given? start).isSome = true ∧ ∀ name, ¬ draft.IsFaulty name := by
  rcases ofRulesBy_cases checking searching start draft with
    ⟨-, hmissing⟩ | ⟨-, _, _, cause, -, hfault, hcause⟩ | ⟨hstart, hsound, -⟩
  · simp [h] at hmissing
  · obtain rfl : .cycle path = cause := by simpa [h] using hcause
    exact absurd rfl (hfault.ne.2 path)
  · exact ⟨hstart, hsound⟩

/-- If there is a start and no rule is faulty, nothing but a cycle can be reported. -/
theorem cycle_or_ok_of_not_isFaulty (hstart : (draft.given? start).isSome = true)
    (hsound : ∀ name, ¬ draft.IsFaulty name) :
    (∃ path, ofRulesBy checking searching start draft = .error (.cycle path)) ∨
      ∃ g, ofRulesBy checking searching start draft = .ok g := by
  rcases ofRulesBy_cases checking searching start draft with
    ⟨hnone, -⟩ | ⟨-, name, alternatives, cause, hgiven, hfault, -⟩ | ⟨-, -, h⟩
  · exact absurd hnone (Option.isSome_iff_ne_none.mp hstart)
  · have hfaulty : draft.IsFaulty name :=
      Draft.isFaulty_iff_exists_firstFault.mpr ⟨alternatives, hgiven, cause, hfault⟩
    exact absurd hfaulty (hsound name)
  · exact h

/-- The fault of the only faulty rule is reported. -/
theorem error_of_only_isFaulty {name : String} {alternatives : List String} {cause : GrammarError}
    (hstart : (draft.given? start).isSome = true) (hgiven : draft.given? name = some alternatives)
    (hfault : Draft.FirstFault name alternatives cause)
    (honly : ∀ other, draft.IsFaulty other → other = name) :
    ofRulesBy checking searching start draft = .error cause := by
  have hfaulty : draft.IsFaulty name :=
    Draft.isFaulty_iff_exists_firstFault.mpr ⟨alternatives, hgiven, cause, hfault⟩
  obtain ⟨other, alternatives', cause', hgiven', hfault', hreported⟩ :=
    exists_firstFault_of_isFaulty checking searching hstart ⟨name, hfaulty⟩
  obtain rfl : other = name :=
    honly other (Draft.isFaulty_iff_exists_firstFault.mpr ⟨alternatives', hgiven', cause', hfault'⟩)
  obtain rfl : alternatives = alternatives' := by simpa [hgiven] using hgiven'
  rw [hreported, hfault.unique hfault']

/-- **Which of several causes is reported.** In whatever order the rules are looked at, a draft is
refused for a missing start exactly if the start has no rule, whatever else is wrong. If it has one
and some rules are faulty, then the cause is the first fault of one of them, and never a cycle; a
cycle is reported only where no rule is faulty. A faulty rule has exactly one first fault, so the
cause is fixed if there is only one such rule. -/
theorem ofRulesBy_error_precedence (start : String) (draft : Draft) :
    ofRulesBy .forwards .forwards start draft = ofRules start draft ∧
    (∀ name, draft.IsFaulty name ↔ ∃ alternatives, draft.given? name = some alternatives ∧
      ∃! cause, Draft.FirstFault name alternatives cause) ∧
    ∀ checking searching : Traversal,
      (∀ name, ofRulesBy checking searching start draft = .error (.missingStart name) ↔
        draft.given? start = none ∧ name = start) ∧
      ((draft.given? start).isSome = true → (∃ name, draft.IsFaulty name) →
        ∃ name alternatives cause, draft.given? name = some alternatives ∧
          Draft.FirstFault name alternatives cause ∧ (∀ path, cause ≠ .cycle path) ∧
          ofRulesBy checking searching start draft = .error cause) ∧
      (∀ path, ofRulesBy checking searching start draft = .error (.cycle path) →
        (draft.given? start).isSome = true ∧ ∀ name, ¬ draft.IsFaulty name) ∧
      ((draft.given? start).isSome = true → (∀ name, ¬ draft.IsFaulty name) →
        (∃ path, ofRulesBy checking searching start draft = .error (.cycle path)) ∨
          ∃ g, ofRulesBy checking searching start draft = .ok g) ∧
      ∀ name alternatives cause, (draft.given? start).isSome = true →
        draft.given? name = some alternatives → Draft.FirstFault name alternatives cause →
        (∀ other, draft.IsFaulty other → other = name) →
          ofRulesBy checking searching start draft = .error cause := by
  refine ⟨ofRulesBy_forwards start draft, fun name => ?_, fun checking searching => ?_⟩
  · rw [Draft.isFaulty_iff_exists_firstFault]
    refine exists_congr fun alternatives => and_congr_right fun _ => ?_
    constructor
    · rintro ⟨cause, h⟩
      exact ⟨cause, h, fun _ h' => h'.unique h⟩
    · rintro ⟨cause, h, -⟩
      exact ⟨cause, h⟩
  · refine ⟨fun name => ofRulesBy_eq_missingStart_iff, fun hstart hfaulty => ?_,
      fun path h => not_isFaulty_of_cycle h, cycle_or_ok_of_not_isFaulty,
      fun name alternatives cause => error_of_only_isFaulty⟩
    obtain ⟨name, alternatives, cause, hgiven, hfault, h⟩ :=
      exists_firstFault_of_isFaulty checking searching hstart hfaulty
    exact ⟨name, alternatives, cause, hgiven, hfault, hfault.ne.2, h⟩

/-- A draft in which the cat and the dog refer to each other, and have several faults each. -/
def brawl : Draft :=
  [("Cat", ["Dog", "a \x7bnoun\x7d \x7b", " "]), ("Dog", [" ", "Cat \x7bnoun"])]

/-- The first rule that is met decides, and in it the first fault, unless the start is missing. -/
example :
    (ofRulesBy .forwards .forwards "Cat" brawl).map Grammar.start =
      .error (.unknownCategory "Cat" "noun") ∧
    (ofRulesBy .backwards .forwards "Cat" brawl).map Grammar.start =
      .error (.emptyAlternative "Dog" 0) ∧
    (ofRulesBy .backwards .forwards "Pig" brawl).map Grammar.start =
      .error (.missingStart "Pig") := by
  decide +kernel

end Grammar

end RandomSentences
