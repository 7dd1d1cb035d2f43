import RandomSentences.Proofs.Derivation
import RandomSentences.Grammar.English
import RandomSentences.Sentence.Expansion
import RandomSentences.Store.Memory

/-!
# Expansion without a guard

`Grammar.derive` ends because the type of grammars says so, and it never meets a rule without
alternatives for the same reason. `Rules.expandWithin` takes nothing of this for granted: it
expands a symbol of any rules in one go, drawing words as it meets them, and it *breaks* where
something is amiss. A name may have no rule, a rule no alternative to choose among, an index may
lie outside the alternatives, or more rules may be expanded within each other than a budget
allows.

For a grammar none of this happens, with a budget of as many rules as the grammar has
(`expandWithin_size`): from every symbol that the grammar resolves, for every source of choices
and every store, the expansion without a guard ends, and it is `Grammar.expandSymbol`. Of the
source nothing is used but that an index below a positive bound is below that bound.
-/

namespace RandomSentences

/-- Where an expansion without a guard breaks. -/
inductive Breach where
  /-- More rules would be expanded within each other than the budget allows. -/
  | tooDeep
  /-- A name is to be expanded that has no rule. -/
  | noRule (name : String)
  /-- A rule is to be expanded that has no alternatives, so there is no index to ask for. -/
  | noAlternative (name : String)
  /-- The index that was asked for is none of the rule's alternatives. -/
  | outOfRange (name : String) (index : Nat)
  deriving DecidableEq, Repr

/-- A computation that asks a store and may break. -/
abbrev Unguarded (σ α : Type) := ExceptT StoreError (StateT σ (Except Breach)) α

namespace Unguarded

variable {σ α β : Type}

/-- Breaks. -/
def breach (cause : Breach) : Unguarded σ α :=
  fun _ => .error cause

/-- Asks a store, which breaks nothing. -/
def ask (question : Asking σ α) : Unguarded σ α :=
  fun store => .ok (question store)

theorem ask_pure (a : α) : ask (pure a : Asking σ α) = pure a :=
  rfl

theorem ask_bind (question : Asking σ α) (next : α → Asking σ β) :
    ask (question >>= next) = ask question >>= fun a => ask (next a) := by
  funext store
  simp only [ask, bind, ExceptT.bind, ExceptT.mk, StateT.bind, Except.bind]
  cases hanswer : question store with
  | mk answer store => cases answer <;> rfl

theorem ask_map (f : α → β) (question : Asking σ α) :
    ask (f <$> question) = f <$> ask question := by
  rw [map_eq_pure_bind, map_eq_pure_bind, ask_bind]
  rfl

/-- Asking several questions one after the other is asking all of them. -/
theorem mapM_ask (question : β → Asking σ α) (subjects : List β) :
    (subjects.mapM fun subject => ask (question subject)) = ask (subjects.mapM question) := by
  induction subjects with
  | nil => rfl
  | cons subject subjects ih =>
    rw [List.mapM_cons, List.mapM_cons, ih, ask_bind]
    simp only [ask_bind, ask_pure]

end Unguarded

/-! ### The expansion -/

variable {γ σ : Type} [ChoiceSource γ] [WordStore σ]

/-- Expands a symbol with at most `budget` rules within each other. Nothing is checked before:
the expansion breaks where it cannot go on. -/
def Rules.expandWithin (rules : Rules) : (budget : Nat) → Symbol → γ → Unguarded σ String
  | _, .terminal category, _ => Unguarded.ask (drawWord category)
  | _, .literal text, _ => pure text
  | 0, .nonterminal _, _ => Unguarded.breach .tooDeep
  | budget + 1, .nonterminal name, source =>
    match rules[name]? with
    | none => Unguarded.breach (.noRule name)
    | some alternatives =>
      if pos : 0 < alternatives.length then
        let (index, rest) := ChoiceSource.index source alternatives.length pos
        match alternatives[index.val]? with
        | none => Unguarded.breach (.outOfRange name index)
        | some alternative => do
          let parts := alternative.zip (ChoiceSource.splits rest alternative.length)
          let texts ← parts.mapM fun part => rules.expandWithin budget part.1 part.2
          return " ".intercalate texts
      else
        Unguarded.breach (.noAlternative name)

namespace Grammar

variable {g : Grammar}

/-- If no part of an alternative breaks, then its parts are told from left to right. -/
theorem mapM_expandWithin {budget : Nat} {parts : List (Symbol × γ)}
    (h : ∀ part ∈ parts, g.rules.expandWithin budget part.1 part.2 =
      Unguarded.ask (σ := σ) (g.derive part.1 part.2).tell) :
    (parts.mapM fun part => g.rules.expandWithin budget part.1 part.2) =
      Unguarded.ask (σ := σ)
        (Derivation.tellAll (parts.map fun part => g.derive part.1 part.2)) := by
  induction parts with
  | nil => rfl
  | cons part parts ih =>
    rw [List.mapM_cons, h part (List.mem_cons_self ..),
      ih fun other hother => h other (List.mem_cons_of_mem _ hother), List.map_cons,
      Derivation.tellAll, Unguarded.ask_bind]
    simp only [Unguarded.ask_bind, Unguarded.ask_pure]

theorem depth_le_depthAll {part : Derivation} {parts : List Derivation} (h : part ∈ parts) :
    part.depth ≤ Derivation.depthAll parts := by
  induction parts with
  | nil => simp at h
  | cons first parts ih =>
    rw [Derivation.depthAll]
    rcases List.mem_cons.mp h with rfl | h
    · exact Nat.le_max_left ..
    · exact Nat.le_trans (ih h) (Nat.le_max_right ..)

/-- An expansion whose derivation is not deeper than the budget does not break. -/
theorem expandWithin_eq_ask {budget : Nat} {s : Symbol} (hs : g.Covers s) {source : γ}
    (hdepth : (g.derive s source).depth ≤ budget) :
    g.rules.expandWithin budget s source = Unguarded.ask (σ := σ) (g.derive s source).tell := by
  induction budget generalizing s source with
  | zero =>
    cases s with
    | terminal category => rw [Rules.expandWithin, derive_terminal, Derivation.tell]
    | literal text => rw [Rules.expandWithin, derive_literal, Derivation.tell, Unguarded.ask_pure]
    | nonterminal name =>
      obtain ⟨alternatives, hrule, alternative, -, hpick⟩ := exists_picked (hs name rfl) source
      simp [derive_nonterminal_pick hrule hpick, Derivation.depth] at hdepth
  | succ budget ih =>
    cases s with
    | terminal category => rw [Rules.expandWithin, derive_terminal, Derivation.tell]
    | literal text => rw [Rules.expandWithin, derive_literal, Derivation.tell, Unguarded.ask_pure]
    | nonterminal name =>
      obtain ⟨alternatives, hrule, alternative, hmem, hpick⟩ := exists_picked (hs name rfl) source
      have hpos := g.length_pos_of_getElem? hrule
      rw [derive_nonterminal_pick hrule hpick, Derivation.depth] at hdepth
      rw [derive_nonterminal_pick hrule hpick, Derivation.tell, Rules.expandWithin]
      rw [ChoiceSource.pick_of_pos source hpos] at hdepth hpick ⊢
      simp only [hrule, dif_pos hpos, hpick, Unguarded.ask_bind, Unguarded.ask_pure]
      rw [← List.map_uncurry_zip_eq_zipWith] at hdepth ⊢
      -- no part is deeper than what is left of the budget
      rw [mapM_expandWithin fun part hpart => ?_]
      · rfl
      · refine ih (covers_of_mem hrule hmem (List.of_mem_zip hpart).1) ?_
        have hle := depth_le_depthAll (List.mem_map_of_mem (f := Function.uncurry g.derive) hpart)
        exact Nat.le_trans hle (Nat.le_of_succ_le_succ hdepth)

/-- **Expansion never breaks.** From every symbol that a grammar resolves, the expansion without a
guard ends with at most as many rules within each other as the grammar has rules, whatever the
source of choices and the store: it meets no name without a rule, asks for no index among no
alternatives, and gets none outside of them. What it yields is `Grammar.expandSymbol`. -/
theorem expandWithin_size {s : Symbol} (hs : g.Resolves s) (source : γ) (store : σ) :
    (g.derive s source).depth ≤ g.size ∧
      g.rules.expandWithin g.size s source store = .ok (g.expandSymbol s source store) := by
  have hdepth := depth_le_size (isDerivation_derive hs.covers source)
  exact ⟨hdepth, congrFun (expandWithin_eq_ask hs.covers hdepth) store⟩

/-- The name of the noun phrases of the built-in grammar is expanded without a breach. -/
theorem expandWithin_size_english :
    english.Resolves (.nonterminal "NP") ∧
      (english.derive (.nonterminal "NP") (NumberStream.ofSeed 7)).depth ≤ english.size ∧
      english.rules.expandWithin english.size (.nonterminal "NP") (NumberStream.ofSeed 7)
          (MemoryStore.seeded 3) =
        .ok (english.expandSymbol (.nonterminal "NP") (NumberStream.ofSeed 7)
          (MemoryStore.seeded 3)) := by
  have htoken : english.resolveToken "NP" = .ok (.nonterminal "NP") := by
    have hread : Symbol.ofToken english.rules.contains "NP" = .nonterminal "NP" :=
      ofToken_eq_nonterminal_iff.mpr ⟨rfl, by decide, by decide +kernel⟩
    have hfault : tokenFault? "NP" = none := by decide
    rw [resolveToken, hfault, hread]
  exact ⟨Or.inr ⟨_, htoken⟩, expandWithin_size (Or.inr ⟨_, htoken⟩) _ _⟩

end Grammar

end RandomSentences
