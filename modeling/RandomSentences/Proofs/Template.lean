import RandomSentences.Proofs.Construction
import RandomSentences.Proofs.Telling

/-!
# Expansions as templates

Told over a store without words, an expansion is a *template*: a text between whose spaces stand
literals and placeholders. `exists_template` says that the template is all that there is to know.
Over any store that never fails, the same rule with the same choices asks for one word for each
placeholder of the template, from left to right, and the text is the template with the words that
were drawn in the places of the placeholders. So the words that a store holds, and how it chooses
among them, have no influence on which rules are expanded or which words are asked for.

Cutting a template at its spaces finds the leaves of the derivation again because no token holds a
blank; and a placeholder between spaces is never a literal, because a token in braces is always read
as a category. Both are part of what it means for rules to be well formed.
-/

namespace RandomSentences

/-! ### Templates -/

namespace Template

/-- The category whose placeholder a piece of a template is. -/
def category? (piece : String) : Option Category :=
  Category.all.find? fun category => category.placeholder == piece

/-- The pieces of a template: what stands between single spaces. -/
def pieces (template : String) : List String :=
  (template.toList.splitOn ' ').map String.ofList

/-- The keys of the placeholders in a template, from left to right. -/
def keys (template : String) : List String :=
  (pieces template).filterMap fun piece => (category? piece).map Category.key

/-- The pieces with the answers in the places of the placeholders, from left to right. A
placeholder without an answer, or for which there was no word, is left. -/
def fillPieces : List String → List (Option String) → List String
  | [], _ => []
  | piece :: pieces, answers =>
    match category? piece with
    | none => piece :: fillPieces pieces answers
    | some _ =>
      match answers with
      | [] => piece :: fillPieces pieces []
      | answer :: answers => answer.getD piece :: fillPieces pieces answers

/-- A template with the answers in the places of its placeholders. -/
def fill (template : String) (answers : List (Option String)) : String :=
  " ".intercalate (fillPieces (pieces template) answers)

theorem category?_placeholder (category : Category) :
    category? category.placeholder = some category :=
  find?_placeholder category

/-- A template is cut into the texts that it was joined from, if there is one and none of them holds
a space. -/
theorem pieces_intercalate {texts : List String} (hne : texts ≠ [])
    (h : ∀ text ∈ texts, ' ' ∉ text.toList) : pieces (" ".intercalate texts) = texts := by
  have hcut : (" ".intercalate texts).toList.splitOn ' ' = texts.map String.toList := by
    rw [String.toList_intercalate]
    exact List.splitOn_intercalate ' ' (by simpa using h) (by simpa using hne)
  rw [pieces, hcut, List.map_map]
  refine (List.map_congr_left fun text _ => ?_).trans (List.map_id texts)
  exact String.ofList_toList

end Template

/-! ### Leaves that can be told apart -/

namespace Leaf

/-- What is told of a leaf if there is no word for it. -/
def plain : Leaf → String
  | word category => category.placeholder
  | literal text => text

/-- The leaf holds no space and cannot be taken for one of another kind. -/
def IsClear : Leaf → Prop
  | word _ => True
  | literal text => isBraced text.toList = false ∧ Text.IsWord text

theorem IsClear.not_mem_plain {leaf : Leaf} (h : leaf.IsClear) : ' ' ∉ leaf.plain.toList := by
  cases leaf with
  | word category => cases category <;> decide
  | literal text =>
    intro hspace
    exact absurd (h.2.2 ' ' hspace) (by decide)

theorem IsClear.category?_plain {leaf : Leaf} (h : leaf.IsClear) :
    (Template.category? leaf.plain).map Category.key = leaf.key? := by
  cases leaf with
  | word category => rw [plain, Template.category?_placeholder, key?, Option.map_some]
  | literal text => rw [plain, Template.category?, find?_placeholder_eq_none h.1, key?,
      Option.map_none]

/-- Answers are put in the same places of clear leaves and of the pieces that they are told as. -/
theorem fillPieces_map_plain {leaves : List Leaf} (h : ∀ leaf ∈ leaves, leaf.IsClear)
    (answers : List (Option String)) :
    Template.fillPieces (leaves.map plain) answers = texts leaves answers := by
  induction leaves generalizing answers with
  | nil => rfl
  | cons leaf leaves ih =>
    have ih := ih fun other hother => h other (List.mem_cons_of_mem _ hother)
    cases leaf with
    | word category =>
      cases answers <;>
        simp only [List.map_cons, plain, Template.fillPieces, Template.category?_placeholder, ih,
          texts]
    | literal text =>
      have hnone : Template.category? text = none :=
        find?_placeholder_eq_none (h (.literal text) (List.mem_cons_self ..)).1
      simp only [List.map_cons, plain, Template.fillPieces, hnone, ih, texts]

/-- Without any words, leaves are told as they are. -/
theorem texts_none {α : Type} (leaves : List Leaf) (keys : List α) :
    texts leaves (keys.map fun _ => none) = leaves.map plain := by
  induction leaves generalizing keys with
  | nil => rfl
  | cons leaf leaves ih =>
    cases leaf with
    | word category =>
      cases keys with
      | nil => rw [List.map_nil, texts, List.map_cons, plain, ← ih [], List.map_nil]
      | cons key keys => rw [List.map_cons, texts, ih, List.map_cons, plain, Option.getD_none]
    | literal text => rw [texts, ih, List.map_cons, plain]

end Leaf

/-! ### Leaves of derivations -/

/-- The symbol that a leaf is the only derivation of. -/
def Leaf.symbol : Leaf → Symbol
  | word category => .terminal category
  | literal text => .literal text

theorem Derivation.leavesAll_eq_flatMap (parts : List Derivation) :
    leavesAll parts = parts.flatMap leaves := by
  induction parts with
  | nil => rfl
  | cons part parts ih => rw [leavesAll, ih, List.flatMap_cons]

namespace Grammar

variable {g : Grammar}

/-- A literal of a grammar's rules is not braced and holds no blank. -/
theorem isClear_literal_of_mem {name text : String} {alternatives : List Alternative}
    {alternative : Alternative} (hrule : g.rules[name]? = some alternatives)
    (ha : alternative ∈ alternatives) (hs : Symbol.literal text ∈ alternative) :
    (Leaf.literal text).IsClear := by
  obtain ⟨hread, hfault, hword⟩ :=
    g.wellFormed.ofToken_text name alternatives hrule alternative ha _ hs
  exact ⟨isBraced_of_ofToken_eq_literal hread hfault, hword⟩

/-- What is a leaf of a derivation stands in a rule, unless the derivation is nothing else. -/
theorem mem_symbols_of_mem_leaves {d : Derivation} (hd : g.IsDerivation d) {leaf : Leaf}
    (h : leaf ∈ d.leaves) :
    d.root = leaf.symbol ∨ ∃ name, (name, leaf.symbol) ∈ g.rules.symbols := by
  induction hd with
  | word category =>
    obtain rfl : leaf = .word category := by simpa [Derivation.leaves] using h
    exact .inl rfl
  | literal text =>
    obtain rfl : leaf = .literal text := by simpa [Derivation.leaves] using h
    exact .inl rfl
  | @rule name alternatives index parts hrule halternative hparts ih =>
    rw [Derivation.leaves, Derivation.leavesAll_eq_flatMap] at h
    obtain ⟨part, hpart, hleaf⟩ := List.mem_flatMap.mp h
    refine .inr ((ih part hpart hleaf).elim (fun hroot => ⟨name, ?_⟩) id)
    exact Rules.mem_symbols_iff.mpr ⟨alternatives, hrule, _, List.mem_of_getElem? halternative,
      hroot ▸ List.mem_map_of_mem hpart⟩

/-- The leaves of a derivation are clear, unless it is a literal from elsewhere. -/
theorem isClear_of_mem_leaves {d : Derivation} (hd : g.IsDerivation d)
    (hroot : ∀ text, d.root = .literal text → (Leaf.literal text).IsClear) :
    ∀ leaf ∈ d.leaves, leaf.IsClear := by
  induction hd with
  | word category => simp [Derivation.leaves, Leaf.IsClear]
  | literal text => simpa [Derivation.leaves] using hroot text rfl
  | @rule name alternatives index parts hrule halternative hparts ih =>
    rw [Derivation.leaves, Derivation.leavesAll_eq_flatMap]
    intro leaf hleaf
    obtain ⟨part, hpart, hleaf⟩ := List.mem_flatMap.mp hleaf
    refine ih part hpart (fun text htext => ?_) leaf hleaf
    refine isClear_literal_of_mem hrule (List.mem_of_getElem? halternative) ?_
    exact htext ▸ List.mem_map_of_mem hpart

end Grammar

namespace Derivation

/-- What is told of a derivation without any words. -/
def template (d : Derivation) : String :=
  " ".intercalate (d.leaves.map Leaf.plain)

variable {d : Derivation}

theorem text_none (d : Derivation) : d.text (d.keys.map fun _ => none) = d.template := by
  rw [text, Leaf.texts_none, template]

variable (hne : d.leaves ≠ []) (hclear : ∀ leaf ∈ d.leaves, leaf.IsClear)

include hne hclear

/-- The pieces of a derivation's template are its leaves. -/
theorem pieces_template : Template.pieces d.template = d.leaves.map Leaf.plain := by
  refine Template.pieces_intercalate (by simpa using hne) fun text htext => ?_
  obtain ⟨leaf, hleaf, rfl⟩ := List.mem_map.mp htext
  exact (hclear leaf hleaf).not_mem_plain

/-- The keys of a derivation can be read off its template. -/
theorem keys_template : Template.keys d.template = d.keys := by
  rw [Template.keys, pieces_template hne hclear, List.filterMap_map, keys]
  exact List.filterMap_congr fun leaf hleaf => (hclear leaf hleaf).category?_plain

/-- The text of a derivation is its template with the answers in the places of placeholders. -/
theorem fill_template (answers : List (Option String)) :
    Template.fill d.template answers = d.text answers := by
  rw [Template.fill, pieces_template hne hclear, Leaf.fillPieces_map_plain hclear, text]

end Derivation

/-! ### Expansions without failures -/

/-- `NeverFails store`: however many words are drawn from the store, and from whatever keys, the
store answers all of the draws. -/
def NeverFails {σ : Type} [WordStore σ] (store : σ) : Prop :=
  ∀ keys, ∃ words after, Answers store keys words after

theorem MemoryStore.neverFails (store : MemoryStore) : NeverFails store := by
  intro keys
  induction keys generalizing store with
  | nil => exact ⟨[], store, .nil store⟩
  | cons key keys ih =>
    obtain ⟨words, after, hwords⟩ := ih (store.draw key).2
    exact ⟨_, after, .cons rfl hwords⟩

namespace Grammar

variable {g : Grammar} {γ : Type} [ChoiceSource γ]

/-- A store in memory without words answers every draw with none. -/
theorem tell_empty {d : Derivation} (hd : g.IsDerivation d) (stream : NumberStream) :
    d.tell (MemoryStore.empty stream) = (.ok d.template, MemoryStore.empty stream) := by
  have hempty : ∀ key, WordStore.randomMember key (MemoryStore.empty stream) =
      (.ok none, MemoryStore.empty stream) := by
    intro key
    simp [WordStore.randomMember, MemoryStore.draw, MemoryStore.members, MemoryStore.empty]
  rw [tell_of_answers hd (answers_none hempty d.keys), Derivation.text_none]

/-- **Words have no influence on choices.** Whatever two stores hold that never fail, expanding a
rule with the same choices asks them for words of the same keys in the same order. These are the
keys of the placeholders of a template, which is what the expansion tells over a store without
words; and over any store that never fails it tells the template with the drawn words in the places
of their placeholders. -/
theorem exists_template {name : String} (hname : name ∈ g.ruleNames) (source : γ) :
    (∀ {σ τ : Type} [WordStore σ] [WordStore τ] (store : σ) (other : τ), NeverFails store →
      NeverFails other →
      (g.expandSymbol (.nonterminal name) source (Logged.mk store [])).2.history =
        (g.expandSymbol (.nonterminal name) source (Logged.mk other [])).2.history) ∧
    ∃ template : String,
      (∀ stream, g.expandSymbol (.nonterminal name) source (MemoryStore.empty stream) =
        (.ok template, MemoryStore.empty stream)) ∧
      ∀ {σ : Type} [WordStore σ] (store : σ), NeverFails store → ∃ words after,
        Answers store (Template.keys template) words after ∧
        g.expandSymbol (.nonterminal name) source store =
          (.ok (Template.fill template words), after) ∧
        (g.expandSymbol (.nonterminal name) source (Logged.mk store [])).2.history =
          (Template.keys template).map .random := by
  have hcovers : g.Covers (.nonterminal name) := by
    rintro other hother
    obtain rfl : name = other := by simpa using hother
    exact Std.ExtTreeMap.mem_keys.mp hname
  have hd := isDerivation_derive hcovers source
  have hne := (tell_eq_map_mapM (σ := MemoryStore) hd).1
  have hclear : ∀ leaf ∈ (g.derive (.nonterminal name) source).leaves, leaf.IsClear := by
    refine isClear_of_mem_leaves hd fun text htext => ?_
    rw [root_derive hcovers source] at htext
    exact absurd htext (by simp)
  have hhistory : ∀ {σ : Type} [WordStore σ] (store : σ), NeverFails store →
      (g.expandSymbol (.nonterminal name) source (Logged.mk store [])).2.history =
        (g.derive (.nonterminal name) source).keys.map .random := by
    intro σ _ store hstore
    obtain ⟨words, after, hwords⟩ := hstore (g.derive (.nonterminal name) source).keys
    rw [expandSymbol, tell_of_answers hd (Logged.answers hwords [])]
    exact Logged.history_afterDraws ..
  refine ⟨fun store other hstore hother => ?_,
    (g.derive (.nonterminal name) source).template, tell_empty hd, fun store hstore => ?_⟩
  · rw [hhistory store hstore, hhistory other hother]
  · rw [Derivation.keys_template hne hclear]
    obtain ⟨words, after, hwords⟩ := hstore (g.derive (.nonterminal name) source).keys
    refine ⟨words, after, hwords, ?_, hhistory store hstore⟩
    rw [Derivation.fill_template hne hclear]
    exact tell_of_answers hd hwords

/-- A noun phrase of the built-in grammar, over a store with one noun and one without words. -/
theorem exists_template_english :
    "NP" ∈ english.ruleNames ∧ NeverFails ((MemoryStore.seeded 3).insert "nouns" ["fox"]) ∧
      NeverFails (MemoryStore.seeded 5) ∧
      (english.expandSymbol (.nonterminal "NP") (NumberStream.ofSeed 7)
          (Logged.mk ((MemoryStore.seeded 3).insert "nouns" ["fox"]) [])).2.history =
        (english.expandSymbol (.nonterminal "NP") (NumberStream.ofSeed 7)
          (Logged.mk (MemoryStore.seeded 5) [])).2.history ∧
      ∃ template words, (english.expandSymbol (.nonterminal "NP") (NumberStream.ofSeed 7)
          (MemoryStore.seeded 5)).1 = .ok template ∧
        (english.expandSymbol (.nonterminal "NP") (NumberStream.ofSeed 7)
          ((MemoryStore.seeded 3).insert "nouns" ["fox"])).1 =
            .ok (Template.fill template words) := by
  have hname : "NP" ∈ english.ruleNames := by decide +kernel
  obtain ⟨hkeys, template, hempty, hfilled⟩ := exists_template hname (NumberStream.ofSeed 7)
  obtain ⟨words, after, -, htold, -⟩ :=
    hfilled ((MemoryStore.seeded 3).insert "nouns" ["fox"]) (MemoryStore.neverFails _)
  refine ⟨hname, MemoryStore.neverFails _, MemoryStore.neverFails _,
    hkeys _ _ (MemoryStore.neverFails _) (MemoryStore.neverFails _), template, words, ?_, ?_⟩
  · rw [MemoryStore.seeded, hempty]
  · rw [htold]

end Grammar

end RandomSentences
