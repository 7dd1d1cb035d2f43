import Mathlib.Data.List.Destutter
import Mathlib.Data.Prod.Lex
import Mathlib.Data.String.Basic
import RandomSentences.Proofs.Bracketing
import RandomSentences.Grammar.English
import RandomSentences.Grammar.Lint

/-!
# Going through rules in any order

A map of rules has no order of its own, so a program that goes through all of its entries may meet
them in any order. A `Traversal` stands for such a program's way to do this: it lists the entries of
each map, in an order that nothing is known about. Along a listing one can look for faults and for
cycles, and collect what a grammar is asked about: its rule names, the rules that are not reached,
the literals that look like rule names, and all warnings.

Of all this, only the choice among several faulty rules depends on the order. The search for cycles
starts at the names one by one, and which cycle it meets depends on where it starts; but the names
are sorted before. What is collected along a listing is sorted after that, and what is found twice
dropped. So `Grammar.ofRules_of_given?_eq` says that drafts which give the same alternatives to each
name have the same outcome in every way to go through them, if no two of their rules are faulty.
-/

namespace RandomSentences

/-- The entries of a map in some order. -/
structure Listing {α : Type} (map : Std.ExtTreeMap String α) where
  entries : List (String × α)
  perm : entries.Perm map.toList

/-- A way to go through the entries of any map. -/
structure Traversal where
  listing : {α : Type} → (map : Std.ExtTreeMap String α) → Listing map

namespace Traversal

/-- Goes through each map in the order of names. -/
def forwards : Traversal :=
  ⟨fun map => ⟨map.toList, .refl _⟩⟩

/-- Goes through each map against the order of names. -/
def backwards : Traversal :=
  ⟨fun map => ⟨map.toList.reverse, map.toList.reverse_perm⟩⟩

end Traversal

/-! ### What is found along a listing -/

namespace Listing

variable {α : Type} {map : Std.ExtTreeMap String α} {tokens : Tokens} {rules : Rules}

/-- The names, sorted. -/
def names (listing : Listing map) : List String :=
  (listing.entries.map Prod.fst).mergeSort (· ≤ ·)

/-- The first fault that is met. -/
def fault? (listing : Listing tokens) : Option GrammarError :=
  listing.entries.findSome? fun (name, alternatives) => ruleFault? name alternatives

/-- The first cycle that the walks from the sorted names meet. -/
def cycle? (listing : Listing rules) : Option (List String) :=
  match listing.names.foldlM rules.visit .start with
  | .error cycle => some cycle
  | .ok _ => none

/-- The sorted names that no references lead to from a start symbol. -/
def unreachable (listing : Listing rules) (start : String) : List String :=
  listing.names.filter fun name => !(rules.reach [] start).contains name

/-- Every symbol of every rule, as it is met, with the rule's name. -/
def symbols (listing : Listing rules) : List (String × Symbol) :=
  listing.entries.flatMap fun (name, alternatives) => alternatives.flatten.map fun s => (name, s)

/-- The categories that some rule draws from, in the order of `Category.all`. -/
def categories (listing : Listing rules) : List Category :=
  let drawn := listing.symbols.filterMap fun (_, s) => s.category?
  Category.all.filter fun c => drawn.contains c

/-- The literals that look like rule names with their rules, sorted and then each once. -/
def suspiciousLiterals (listing : Listing rules) : List (String × String) :=
  let found := listing.symbols.filterMap fun (name, s) =>
    (s.literal?.filter looksLikeRuleName).map fun text => (name, text)
  (found.mergeSort fun a b => toLex a ≤ toLex b).destutter (· ≠ ·)

/-- All warnings about rules with a start symbol. -/
def lint (listing : Listing rules) (start : String) : List Warning :=
  ((listing.unreachable start).map fun name => .unreachableRule name start) ++
  (listing.suspiciousLiterals.map fun (name, text) => .suspiciousLiteral name text) ++
  ((Category.all.filter fun c => !listing.categories.contains c).map .unusedCategory)

/-! ### Sorting -/

/-- Sorting along a linear order leaves nothing out of order. -/
theorem pairwise_mergeSort_le {β γ : Type} [LinearOrder γ] (key : β → γ) (l : List β) :
    (l.mergeSort fun a b => key a ≤ key b).Pairwise fun a b => key a ≤ key b := by
  have hsorted := @List.pairwise_mergeSort β (fun a b => decide (key a ≤ key b))
    (fun a b c hab hbc => by
      simp only [decide_eq_true_eq] at hab hbc ⊢
      exact le_trans hab hbc)
    (fun a b => by
      simp only [Bool.or_eq_true, decide_eq_true_eq]
      exact le_total (key a) (key b)) l
  exact hsorted.imp fun h => by simpa using h

/-- Sorting the names brings them into the order of the map. -/
theorem names_eq (listing : Listing map) : listing.names = map.keys := by
  have hkeys : map.keys.Pairwise (· ≤ ·) :=
    Std.ExtTreeMap.ordered_keys.imp fun h => (compare_lt_iff_lt.mp h).le
  have hperm : listing.names.Perm map.keys := by
    rw [← Std.ExtTreeMap.map_fst_toList_eq_keys]
    exact (List.mergeSort_perm _ _).trans (listing.perm.map Prod.fst)
  exact hperm.eq_of_pairwise (fun a b _ _ => le_antisymm) (pairwise_mergeSort_le id _) hkeys

theorem cycle?_eq (listing : Listing rules) : listing.cycle? = rules.cycle? := by
  rw [cycle?, names_eq]
  rfl

/-! ### Faults -/

/-- If a search finds only one thing, it finds it in every order. -/
theorem findSome?_eq_of_perm {α β : Type} {f : α → Option β} {l l' : List α} (h : l.Perm l')
    (hone : ∀ a ∈ l, ∀ b ∈ l, (f a).isSome → (f b).isSome → f a = f b) :
    l.findSome? f = l'.findSome? f := by
  cases hfound : l.findSome? f with
  | none =>
    rw [List.findSome?_eq_none_iff] at hfound
    exact (List.findSome?_eq_none_iff.mpr fun a ha => hfound a (h.mem_iff.mpr ha)).symm
  | some b =>
    obtain ⟨a, ha, hb⟩ := List.exists_of_findSome?_eq_some hfound
    cases hfound' : l'.findSome? f with
    | none =>
      rw [List.findSome?_eq_none_iff] at hfound'
      exact absurd (hb.symm.trans (hfound' a (h.mem_iff.mp ha))) (by simp)
    | some b' =>
      obtain ⟨a', ha', hb'⟩ := List.exists_of_findSome?_eq_some hfound'
      rw [← hb, ← hb']
      exact hone a ha a' (h.mem_iff.mpr ha') (by simp [hb]) (by simp [hb'])

/-- Where no two rules are faulty, the same fault is met in every order. -/
theorem fault?_eq (listing : Listing tokens)
    (hone : ∀ (name other : String) (alternatives alternatives' : List (List String)),
      tokens[name]? = some alternatives → tokens[other]? = some alternatives' →
      ruleFault? name alternatives ≠ none → ruleFault? other alternatives' ≠ none →
      name = other) :
    listing.fault? = tokens.fault? := by
  refine findSome?_eq_of_perm listing.perm ?_
  rintro ⟨name, alternatives⟩ hname ⟨other, alternatives'⟩ hother hfault hfault'
  rw [listing.perm.mem_iff, Std.ExtTreeMap.mem_toList_iff_getElem?_eq_some] at hname hother
  obtain rfl := hone name other _ _ hname hother (Option.isSome_iff_ne_none.mp hfault)
    (Option.isSome_iff_ne_none.mp hfault')
  obtain rfl : alternatives = alternatives' := by simpa [hname] using hother
  rfl

theorem fault?_eq_none_iff (listing : Listing tokens) :
    listing.fault? = none ↔ tokens.fault? = none := by
  simp only [fault?, Tokens.fault?, List.findSome?_eq_none_iff, listing.perm.mem_iff]

/-! ### What is collected -/

theorem mem_destutter'_ne {β : Type} [DecidableEq β] {a b : β} {l : List β} :
    a ∈ l.destutter' (· ≠ ·) b ↔ a ∈ b :: l := by
  induction l generalizing b with
  | nil => simp
  | cons c l ih =>
    by_cases hbc : b = c
    · subst hbc
      simp [ih]
    · simp [hbc, ih]

/-- What stands several times in a row is kept once. -/
theorem mem_destutter_ne {β : Type} [DecidableEq β] {a : β} {l : List β} :
    a ∈ l.destutter (· ≠ ·) ↔ a ∈ l := by
  cases l with
  | nil => simp
  | cons b l => exact mem_destutter'_ne

/-- In a sorted list, what is equal stands in a row, so dropping repetitions leaves no two alike. -/
theorem pairwise_lt_destutter_ne {β γ : Type} [DecidableEq β] [LinearOrder γ] {key : β → γ}
    (hkey : Function.Injective key) {l : List β} (h : l.Pairwise fun a b => key a ≤ key b) :
    (l.destutter (· ≠ ·)).Pairwise fun a b => key a < key b := by
  cases l with
  | nil => exact .nil
  | cons b l =>
    rw [List.destutter_cons']
    induction l generalizing b with
    | nil => exact List.pairwise_singleton _ b
    | cons c l ih =>
      obtain ⟨hb, hl⟩ := List.pairwise_cons.mp h
      by_cases hbc : b = c
      · rw [List.destutter'_cons_neg _ (by simpa using hbc)]
        exact ih b (hbc ▸ hl)
      · rw [List.destutter'_cons_pos _ hbc, List.pairwise_cons]
        refine ⟨fun a ha => ?_, ih c hl⟩
        have hlt : key b < key c :=
          lt_of_le_of_ne (hb c (List.mem_cons_self ..)) fun heq => hbc (hkey heq)
        rcases List.mem_cons.mp (mem_destutter'_ne.mp ha) with rfl | ha
        · exact hlt
        · exact hlt.trans_le ((List.pairwise_cons.mp hl).1 a ha)

/-- Lists in strictly increasing order are equal if they have the same members. -/
theorem eq_of_pairwise_lt {β γ : Type} [LinearOrder γ] {key : β → γ} {l l' : List β}
    (h : l.Pairwise fun a b => key a < key b) (h' : l'.Pairwise fun a b => key a < key b)
    (hmem : ∀ a, a ∈ l ↔ a ∈ l') : l = l' := by
  have hnodup : ∀ {m : List β}, (m.Pairwise fun a b => key a < key b) → m.Nodup := fun hm =>
    hm.imp fun hlt heq => hlt.ne (congrArg key heq)
  have hperm := (List.perm_ext_iff_of_nodup (hnodup h) (hnodup h')).mpr hmem
  exact hperm.eq_of_pairwise (fun a b _ _ hab hba => absurd hba hab.asymm) h h'

/-- The symbols of all rules are met in some order. -/
theorem symbols_perm (listing : Listing rules) : listing.symbols.Perm rules.symbols :=
  listing.perm.flatMap_right _

end Listing

namespace Grammar

variable {g : Grammar}

theorem unreachable_listing (listing : Listing g.rules) :
    listing.unreachable g.start = g.unreachable := by
  rw [Listing.unreachable, listing.names_eq]
  rfl

theorem categories_listing (listing : Listing g.rules) : listing.categories = g.categories := by
  rw [Listing.categories, categories]
  refine List.filter_congr fun c _ => ?_
  rw [List.contains_eq_mem, List.contains_eq_mem]
  exact decide_eq_decide.mpr (listing.symbols_perm.filterMap _).mem_iff

/-- The suspicious literals of a grammar are listed in increasing order. -/
theorem pairwise_lt_suspiciousLiterals (g : Grammar) :
    g.suspiciousLiterals.Pairwise fun a b => toLex a < toLex b := by
  rw [suspiciousLiterals, List.pairwise_flatMap]
  constructor
  · rintro ⟨name, alternatives⟩ -
    rw [List.pairwise_map]
    refine Std.ExtTreeSet.ordered_toList.imp fun h => ?_
    exact Prod.Lex.toLex_lt_toLex.mpr (.inr ⟨rfl, compare_lt_iff_lt.mp h⟩)
  · refine Std.ExtTreeMap.ordered_keys_toList.imp fun h x hx y hy => ?_
    obtain ⟨text, -, rfl⟩ := List.mem_map.mp hx
    obtain ⟨text', -, rfl⟩ := List.mem_map.mp hy
    exact Prod.Lex.toLex_lt_toLex.mpr (.inl (compare_lt_iff_lt.mp h))

/-- A literal is suspicious if it stands in a rule and looks like a rule name. -/
theorem mem_suspiciousLiterals_iff {name text : String} :
    (name, text) ∈ g.suspiciousLiterals ↔
      (name, .literal text) ∈ g.rules.symbols ∧ looksLikeRuleName text = true := by
  simp only [suspiciousLiterals, suspiciousLiteralsOf, List.mem_flatMap, List.mem_map,
    Std.ExtTreeSet.mem_toList, Std.ExtTreeSet.mem_ofList, List.contains_iff_mem, List.mem_filter,
    List.mem_filterMap, List.mem_flatten, Prod.exists, Prod.mk.injEq, Rules.mem_symbols_iff,
    Std.ExtTreeMap.mem_toList_iff_getElem?_eq_some]
  constructor
  · rintro ⟨_, alternatives, hrule, _, ⟨⟨s, ⟨alternative, ha, hs⟩, hliteral⟩, hlooks⟩, rfl, rfl⟩
    obtain rfl := Symbol.literal?_eq_some_iff.mp hliteral
    exact ⟨⟨alternatives, hrule, alternative, ha, hs⟩, hlooks⟩
  · rintro ⟨⟨alternatives, hrule, alternative, ha, hs⟩, hlooks⟩
    exact ⟨name, alternatives, hrule, text, ⟨⟨_, ⟨alternative, ha, hs⟩, rfl⟩, hlooks⟩, rfl, rfl⟩

theorem suspiciousLiterals_listing (listing : Listing g.rules) :
    listing.suspiciousLiterals = g.suspiciousLiterals := by
  refine Listing.eq_of_pairwise_lt ?_ g.pairwise_lt_suspiciousLiterals ?_
  · exact Listing.pairwise_lt_destutter_ne toLex.injective (Listing.pairwise_mergeSort_le toLex _)
  · rintro ⟨name, text⟩
    rw [mem_suspiciousLiterals_iff, Listing.suspiciousLiterals, Listing.mem_destutter_ne,
      List.mem_mergeSort, List.mem_filterMap, ← listing.symbols_perm.mem_iff]
    constructor
    · rintro ⟨⟨other, s⟩, hs, hfound⟩
      obtain ⟨found, hfilter, hpair⟩ := Option.map_eq_some_iff.mp hfound
      obtain ⟨rfl, rfl⟩ : other = name ∧ found = text := by simpa using hpair
      obtain ⟨hliteral, hlooks⟩ := Option.filter_eq_some_iff.mp hfilter
      exact ⟨Symbol.literal?_eq_some_iff.mp hliteral ▸ hs, hlooks⟩
    · rintro ⟨hs, hlooks⟩
      exact ⟨_, hs, by simp [Symbol.literal?, Option.filter, hlooks]⟩

theorem lint_listing (listing : Listing g.rules) : listing.lint g.start = g.lint := by
  rw [Listing.lint, unreachable_listing, suspiciousLiterals_listing, categories_listing, lint]

/-! ### Building along listings -/

theorem mem_classify_of_mem {tokens : Tokens} {name : String} (h : name ∈ tokens) :
    name ∈ tokens.classify :=
  mem_iff_mem_classify.mpr h

/-- The grammar with some start symbol and rules, with one traversal for the faults and another one
for the cycles. -/
def ofTokensBy (checking searching : Traversal) (start : String) (tokens : Tokens)
    (hwords : tokens.AreWords) : Except GrammarError Grammar :=
  if hstart : start ∈ tokens then
    match hfault : (checking.listing tokens).fault? with
    | some fault => .error fault
    | none =>
      match hcycle : (searching.listing tokens.classify).cycle? with
      | some path => .error (.cycle path)
      | none =>
        .ok {
          start := start
          rules := tokens.classify
          start_mem := mem_classify_of_mem hstart
          wellFormed := tokens.wellFormed_classify hwords
            ((checking.listing tokens).fault?_eq_none_iff.mp hfault)
          wellFounded := Rules.wellFounded_of_cycle?_eq_none
            ((searching.listing tokens.classify).cycle?_eq.symm.trans hcycle) }
  else
    .error (.missingStart start)

/-- The grammar with some start symbol and the rules of a draft, with one traversal for the faults
and another one for the cycles. -/
def ofRulesBy (checking searching : Traversal) (start : String) (draft : Draft) :
    Except GrammarError Grammar :=
  ofTokensBy checking searching start (Tokens.ofPairs draft) (Tokens.areWords_ofPairs draft)

/-- Only the first fault that is met may depend on the traversals. -/
theorem ofTokensBy_eq {checking searching : Traversal} {start : String} {tokens : Tokens}
    {hwords : tokens.AreWords} (h : (checking.listing tokens).fault? = tokens.fault?) :
    ofTokensBy checking searching start tokens hwords = ofTokens start tokens hwords := by
  have hcycles := (searching.listing tokens.classify).cycle?_eq
  unfold ofTokensBy ofTokens
  -- both look for a start, a fault and a cycle, and find the same at each place
  split
  · split
    · split <;> simp_all
    · split
      · split
        · simp_all
        · split <;> simp_all
      · split
        · simp_all
        · split <;> simp_all
  · rfl

end Grammar

/-! ### Drafts of the same rules -/

namespace Draft

variable {draft other : Draft}

/-- `draft.IsFaulty name`: the rule has no alternatives, or an alternative without tokens, or a
token in braces that is no placeholder. -/
def IsFaulty (draft : Draft) (name : String) : Prop :=
  ∃ alternatives, draft.given? name = some alternatives ∧ (alternatives = [] ∨
    ∃ alternative ∈ alternatives, Text.words alternative = [] ∨
      ∃ token ∈ Text.words alternative, isBraced token.toList = true ∧
        ∀ category : Category, token ≠ category.placeholder)

/-- A rule is faulty exactly if a fault is found in its tokens. -/
theorem isFaulty_iff {name : String} :
    draft.IsFaulty name ↔ ∃ alternatives, (Tokens.ofPairs draft)[name]? = some alternatives ∧
      ruleFault? name alternatives ≠ none := by
  simp only [IsFaulty, getElem?_ofPairs, Option.map_eq_some_iff, ne_eq, ruleFault?_eq_none_iff,
    tokenFault?_eq_none_iff]
  constructor
  · rintro ⟨alternatives, hgiven, hfaulty⟩
    refine ⟨_, ⟨alternatives, hgiven, rfl⟩, fun ⟨hne, hall⟩ => ?_⟩
    rcases hfaulty with rfl | ⟨alternative, ha, hempty | ⟨token, htoken, hbraced, hcategory⟩⟩
    · exact hne rfl
    · exact (hall _ (List.mem_map_of_mem ha)).1 hempty
    · obtain ⟨category, heq⟩ := (hall _ (List.mem_map_of_mem ha)).2 token htoken hbraced
      exact hcategory category heq
  · rintro ⟨_, ⟨alternatives, hgiven, rfl⟩, hfault⟩
    refine ⟨alternatives, hgiven, ?_⟩
    by_contra hfaulty
    push Not at hfaulty
    obtain ⟨hne, hall⟩ := hfaulty
    refine hfault ⟨by simpa using hne, fun words hwords => ?_⟩
    obtain ⟨alternative, ha, rfl⟩ := List.mem_map.mp hwords
    exact hall alternative ha

/-- Without a fault in the tokens no rule is faulty. -/
theorem not_isFaulty (h : (Tokens.ofPairs draft).fault? = none) (name : String) :
    ¬ draft.IsFaulty name := by
  rw [isFaulty_iff]
  rintro ⟨alternatives, hrule, hfault⟩
  exact hfault (ruleFault?_eq_none_iff.mpr (fault?_eq_none_iff.mp h name alternatives hrule))

/-- Drafts that give the same alternatives to each name have the same tokens. -/
theorem ofPairs_eq_of_given?_eq (hsame : ∀ name, draft.given? name = other.given? name) :
    Tokens.ofPairs draft = Tokens.ofPairs other := by
  refine Std.ExtTreeMap.ext_getElem? fun name => ?_
  rw [getElem?_ofPairs, getElem?_ofPairs, hsame]

/-- Entries with different names may stand in any order. -/
theorem given?_eq_of_perm (h : draft.Perm other) (hnodup : (draft.map Prod.fst).Nodup)
    (name : String) : draft.given? name = other.given? name := by
  have hnodup' : (other.map Prod.fst).Nodup := (h.map Prod.fst).nodup_iff.mp hnodup
  by_cases hname : name ∈ draft.map Prod.fst
  · obtain ⟨⟨_, alternatives⟩, hentry, rfl⟩ := List.mem_map.mp hname
    rw [given?_eq_some_of_mem hnodup hentry, given?_eq_some_of_mem hnodup' (h.mem_iff.mp hentry)]
  · rw [given?_eq_none_of_not_mem hname,
      given?_eq_none_of_not_mem fun h' => hname ((h.map Prod.fst).mem_iff.mpr h')]

/-- Entries whose names come again later do not count. -/
theorem given?_append_of_subset {earlier : Draft}
    (h : earlier.map Prod.fst ⊆ draft.map Prod.fst) (name : String) :
    given? (earlier ++ draft) name = draft.given? name := by
  rw [given?_append]
  cases hgiven : draft.given? name with
  | some alternatives => rfl
  | none =>
    rw [Option.none_or]
    refine given?_eq_none_of_not_mem fun hname => ?_
    obtain ⟨entry, hentry, rfl⟩ := List.mem_map.mp (h hname)
    rw [given?, List.lookup_eq_none_iff] at hgiven
    simpa using hgiven entry (List.mem_reverse.mpr hentry)

end Draft

namespace Grammar

/-- A draft without two faulty rules has the same outcome for all traversals. -/
theorem ofRulesBy_eq {start : String} {draft : Draft}
    (hone : ∀ name other, draft.IsFaulty name → draft.IsFaulty other → name = other)
    (checking searching : Traversal) :
    ofRulesBy checking searching start draft = ofRules start draft := by
  refine ofTokensBy_eq (Listing.fault?_eq _ fun name other _ _ hname hother hfault hfault' => ?_)
  exact hone name other (Draft.isFaulty_iff.mpr ⟨_, hname, hfault⟩)
    (Draft.isFaulty_iff.mpr ⟨_, hother, hfault'⟩)

/-- **Nothing depends on the order of the rules.** Drafts that give the same alternatives to each
name make the same grammar or are refused for the same cause, be it one cycle out of several, and
this for all traversals, unless two rules are faulty. Whatever a grammar is asked about is listed in
the same order by all traversals. -/
theorem ofRules_of_given?_eq {start : String} {draft other : Draft}
    (hsame : ∀ name, draft.given? name = other.given? name)
    (hone : ∀ name name', draft.IsFaulty name → draft.IsFaulty name' → name = name') :
    ofRules start draft = ofRules start other ∧
    (∀ checking searching : Traversal,
      ofRulesBy checking searching start draft = ofRules start draft ∧
      ofRulesBy checking searching start other = ofRules start draft) ∧
    ∀ g, ofRules start draft = .ok g → ∀ t : Traversal,
      (t.listing g.rules).names = g.ruleNames ∧
      (t.listing g.rules).unreachable g.start = g.unreachable ∧
      (t.listing g.rules).suspiciousLiterals = g.suspiciousLiterals ∧
      (t.listing g.rules).lint g.start = g.lint := by
  have hrules : ofRules start draft = ofRules start other :=
    ofTokens_congr rfl (Draft.ofPairs_eq_of_given?_eq hsame)
  have hone' : ∀ name name', other.IsFaulty name → other.IsFaulty name' → name = name' := by
    simpa only [Draft.IsFaulty, hsame] using hone
  refine ⟨hrules, fun checking searching => ⟨ofRulesBy_eq hone _ _, ?_⟩, fun g _ t => ?_⟩
  · rw [ofRulesBy_eq hone', hrules]
  · exact ⟨Listing.names_eq _, unreachable_listing _, suspiciousLiterals_listing _, lint_listing _⟩

/-- Tokens with a fault are refused for the first one. -/
theorem ofTokens_of_fault? {start : String} {tokens : Tokens} {hwords : tokens.AreWords}
    {fault : GrammarError} (hstart : start ∈ tokens) (hfault : tokens.fault? = some fault) :
    ofTokens start tokens hwords = .error fault := by
  unfold ofTokens
  rw [dif_pos hstart]
  split <;> simp_all

/-- A round dance of two animals, one of which also dances alone. -/
def dance : Draft :=
  [("S", ["the Fox"]), ("Hen", ["a Fox", "old Hen"]), ("Fox", ["near Hen"])]

/-- A den with one faulty rule, in which there are two faults. -/
def den : Draft :=
  [("S", ["the Fox"]), ("Fox", ["\x7bunicorns\x7d", " "])]

theorem eq_of_isFaulty_den {name : String} (h : den.IsFaulty name) : name = "Fox" := by
  obtain ⟨alternatives, hrule, hfault⟩ := Draft.isFaulty_iff.mp h
  have hname : name ∈ (Tokens.ofPairs den).keys :=
    Std.ExtTreeMap.mem_keys.mpr (Std.ExtTreeMap.mem_iff_isSome_getElem?.mpr (by simp [hrule]))
  have hkeys : (Tokens.ofPairs den).keys = ["Fox", "S"] := by decide +kernel
  rw [hkeys] at hname
  rcases List.mem_pair.mp hname with rfl | rfl
  · rfl
  · have hsound : ruleFault? "S" [["the", "Fox"]] = none := by decide +kernel
    have hS : (Tokens.ofPairs den)["S"]? = some [["the", "Fox"]] := by decide +kernel
    obtain rfl : [["the", "Fox"]] = alternatives := by simpa [hS] using hrule
    exact absurd hsound hfault

/-- The dance is refused for the same one of its cycles when it is read backwards after an entry
that does not count; the den for the same fault; and the built-in grammar is built alike, with the
same warnings. -/
theorem ofRules_of_given?_eq_dance :
    (ofRules "S" dance = .error (.cycle ["Fox", "Hen", "Fox"]) ∧
      ofRulesBy .backwards .backwards "S" (("Hen", []) :: dance.reverse) = ofRules "S" dance) ∧
    (ofRules "S" den = .error (.unknownCategory "Fox" "unicorns") ∧
      ofRulesBy .backwards .forwards "S" den.reverse = ofRules "S" den) ∧
    ofRules defaultStart englishRules.reverse = .ok english ∧
      (Traversal.backwards.listing english.rules).lint english.start = english.lint := by
  have hdance : ofRules "S" dance = .error (.cycle ["Fox", "Hen", "Fox"]) :=
    (ofTokens_eq_error_iff (by decide +kernel) (by decide +kernel)).mpr ⟨_, by decide +kernel, rfl⟩
  have hden : ofRules "S" den = .error (.unknownCategory "Fox" "unicorns") :=
    ofTokens_of_fault? (by decide +kernel) (by decide +kernel)
  have hnone : ∀ name, ¬ dance.IsFaulty name := Draft.not_isFaulty (by decide +kernel)
  have hnone' : ∀ name, ¬ Draft.IsFaulty englishRules name :=
    Draft.not_isFaulty (by decide +kernel)
  have hearlier : ([("Hen", [])] : Draft).map Prod.fst ⊆ dance.reverse.map Prod.fst := by decide
  have hsame : ∀ name, dance.given? name = Draft.given? (("Hen", []) :: dance.reverse) name := by
    intro name
    rw [Draft.given?_eq_of_perm dance.reverse_perm.symm (by decide)]
    exact (Draft.given?_append_of_subset hearlier name).symm
  refine ⟨⟨hdance, ?_⟩, ⟨hden, ?_⟩, ?_, ?_⟩
  · exact ((ofRules_of_given?_eq hsame fun name _ h => absurd h (hnone name)).2.1 _ _).2
  · exact ((ofRules_of_given?_eq (Draft.given?_eq_of_perm den.reverse_perm.symm (by decide))
      fun name name' h h' => (eq_of_isFaulty_den h).trans (eq_of_isFaulty_den h').symm).2.1 _ _).2
  · rw [← ofRules_english]
    exact (ofRules_of_given?_eq (Draft.given?_eq_of_perm (List.reverse_perm _).symm (by decide))
      fun name _ h => absurd h (hnone' name)).1.symm
  · exact ((ofRules_of_given?_eq (fun _ => rfl) fun name _ h => absurd h (hnone' name)).2.2 _
      ofRules_english .backwards).2.2.2

/-- Of two faulty rules, the one is reported that is met first. -/
example :
    (Traversal.forwards.listing (Tokens.ofPairs [("S", []), ("Fox", [""])])).fault? =
      some (.emptyAlternative "Fox" 0) ∧
    (Traversal.backwards.listing (Tokens.ofPairs [("S", []), ("Fox", [""])])).fault? =
      some (.emptyRule "S") := by
  decide +kernel

end Grammar

end RandomSentences
