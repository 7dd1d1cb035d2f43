import RandomSentences.Proofs.Derivation
import RandomSentences.Proofs.Merge
import RandomSentences.Grammar.English
import RandomSentences.Sentence.Expansion

/-!
# Choices stay where they are made

Merging a second grammar into a first one replaces rules, adds rules, and turns literals into
references. None of this reaches a choice that is made elsewhere in the sentence. To say so, both
derivations of a seed are cut at the names of the second grammar: whatever hangs below such a
name is taken away, and a leaf with the name is left. `cut_seededDerivation_merge` says that the
two cut derivations are equal, and that each is cut from a derivation which its grammar admits and
which the sentence of the seed is told from.

It holds because every symbol of an alternative is given a source of its own, split off in order,
whether its expansion leaves a choice or not. So a literal that becomes a reference takes nothing
from its neighbours, and what is expanded below one symbol never depends on what is expanded
below another.
-/

namespace RandomSentences

namespace Derivation

mutual

/-- A derivation without what is derived from the given names: a leaf with the name takes the
place of its rule, and a literal that is such a name is such a leaf already. -/
def cut (isCut : String → Bool) : Derivation → Derivation
  | word category => word category
  | literal text => literal text
  | rule name index parts =>
    if isCut name then literal name else rule name index (cutAll isCut parts)

/-- Each of some derivations without what is derived from the given names. -/
def cutAll (isCut : String → Bool) : List Derivation → List Derivation
  | [] => []
  | part :: parts => cut isCut part :: cutAll isCut parts

end

theorem cutAll_eq_map (isCut : String → Bool) (parts : List Derivation) :
    cutAll isCut parts = parts.map (cut isCut) := by
  induction parts with
  | nil => rfl
  | cons part parts ih => rw [cutAll, ih, List.map_cons]

end Derivation

namespace Grammar

variable {g h m : Grammar} {γ : Type} [ChoiceSource γ]

/-- The derivation that the sentence of a seed is told from. -/
def seededDerivation (g : Grammar) (seed : UInt64) : Derivation :=
  g.derive g.startSymbol (NumberStream.ofSeed seed)

theorem generateSeeded_eq_map_tell {σ : Type} [WordStore σ] (g : Grammar) (seed : UInt64) :
    g.generateSeeded seed =
      (finishSentence <$> (g.seededDerivation seed).tell : Asking σ String) := by
  rw [generateSeeded, generate, map_eq_pure_bind]
  rfl

theorem isDerivation_seededDerivation (g : Grammar) (seed : UInt64) :
    g.IsDerivation (g.seededDerivation seed) :=
  isDerivation_derive (Resolves.covers (.inl rfl)) _

theorem root_seededDerivation (g : Grammar) (seed : UInt64) :
    (g.seededDerivation seed).root = g.startSymbol :=
  root_derive (Resolves.covers (.inl rfl)) _

/-- A name with a rule that is cut leaves nothing but the name. -/
theorem cut_derive_of_isCut {isCut : String → Bool} {name : String} (hname : name ∈ g.rules)
    (hcut : isCut name = true) (source : γ) :
    (g.derive (.nonterminal name) source).cut isCut = .literal name := by
  obtain ⟨alternatives, hrule, alternative, -, hpick⟩ := exists_picked hname source
  rw [derive_nonterminal_pick hrule hpick, Derivation.cut, if_pos hcut]

/-- Two alternatives are cut to the same parts if they are cut to the same from every source. -/
theorem cutAll_zipWith_congr {isCut : String → Bool} {alternative : Alternative}
    {f : Symbol → Symbol}
    (h : ∀ s ∈ alternative, ∀ source : γ,
      (g.derive s source).cut isCut = (m.derive (f s) source).cut isCut) (sources : List γ) :
    Derivation.cutAll isCut (List.zipWith g.derive alternative sources) =
      Derivation.cutAll isCut (List.zipWith m.derive (alternative.map f) sources) := by
  rw [Derivation.cutAll_eq_map, Derivation.cutAll_eq_map, List.zipWith_map_left,
    ← List.map_uncurry_zip_eq_zipWith, ← List.map_uncurry_zip_eq_zipWith, List.map_map,
    List.map_map]
  exact List.map_congr_left fun part hpart => h part.1 (List.of_mem_zip hpart).1 part.2

/-- At a name that only the first grammar has a rule for, a merged grammar picks the same
alternative from the same source, and expands its promoted symbols from the same sources. -/
theorem derive_nonterminal_merge (hm : g.merge h = .ok m) {name : String}
    (hname : ¬ h.rules.contains name = true) {alternatives : List Alternative}
    {alternative : Alternative} {source : γ} (hrule : g.rules[name]? = some alternatives)
    (hpick : alternatives[(ChoiceSource.pick source alternatives.length).1]? = some alternative) :
    m.derive (.nonterminal name) source =
      .rule name (ChoiceSource.pick source alternatives.length).1
        (List.zipWith m.derive (alternative.map (Symbol.promote h.rules.contains))
          (ChoiceSource.splits (ChoiceSource.pick source alternatives.length).2
            alternative.length)) := by
  have hrule' : m.rules[name]? = some (promoteAll h.rules.contains alternatives) := by
    rw [getElem?_rules_merge_left hm hname, hrule, Option.map_some]
  have hlength : (promoteAll h.rules.contains alternatives).length = alternatives.length :=
    List.length_map ..
  have hpick' : (promoteAll h.rules.contains alternatives)[(ChoiceSource.pick source
      (promoteAll h.rules.contains alternatives).length).1]? =
        some (alternative.map (Symbol.promote h.rules.contains)) := by
    rw [hlength, promoteAll, List.getElem?_map, hpick, Option.map_some]
  rw [derive_nonterminal_pick hrule' hpick', hlength, List.length_map]

/-- Outside of the names of the second grammar, a merged grammar derives the promoted symbol as
the first grammar derives the symbol. -/
theorem cut_derive_promote (hm : g.merge h = .ok m) {s : Symbol} (hs : g.Covers s) (source : γ) :
    (g.derive s source).cut h.rules.contains =
      (m.derive (s.promote h.rules.contains) source).cut h.rules.contains := by
  induction s using g.wellFounded_isPart.induction generalizing source with
  | _ s ih =>
    cases s with
    | terminal category => rw [Symbol.promote, derive_terminal, derive_terminal]
    | literal text =>
      rw [Symbol.promote, derive_literal, Derivation.cut]
      by_cases hname : h.rules.contains text = true
      · rw [if_pos hname, cut_derive_of_isCut (mem_rules_merge_right hm hname) hname]
      · rw [if_neg hname, derive_literal, Derivation.cut]
    | nonterminal name =>
      rw [Symbol.promote]
      by_cases hname : h.rules.contains name = true
      · rw [cut_derive_of_isCut (hs name rfl) hname,
          cut_derive_of_isCut (mem_rules_merge_right hm hname) hname]
      · obtain ⟨alternatives, hrule, alternative, halternative, hpick⟩ :=
          exists_picked (hs name rfl) source
        rw [derive_nonterminal_pick hrule hpick, derive_nonterminal_merge hm hname hrule hpick,
          Derivation.cut, if_neg hname, Derivation.cut, if_neg hname]
        congr 1
        refine cutAll_zipWith_congr (fun part hpart partSource => ?_) _
        exact ih part ⟨name, _, _, rfl, hrule, halternative, hpart⟩
          (covers_of_mem hrule halternative hpart) partSource

/-- **Merging leaves choices elsewhere alone.** For every seed, a grammar and what a second one is
merged into it tell their sentences from derivations that they admit, from their start symbols on,
and that are equal once both are cut at the names of the second grammar. -/
theorem cut_seededDerivation_merge (hm : g.merge h = .ok m) (seed : UInt64) :
    (∀ {σ : Type} [WordStore σ], g.generateSeeded seed =
        (finishSentence <$> (g.seededDerivation seed).tell : Asking σ String) ∧
      m.generateSeeded seed =
        (finishSentence <$> (m.seededDerivation seed).tell : Asking σ String)) ∧
    (g.IsDerivation (g.seededDerivation seed) ∧
      (g.seededDerivation seed).root = g.startSymbol) ∧
    (m.IsDerivation (m.seededDerivation seed) ∧
      (m.seededDerivation seed).root = m.startSymbol) ∧
    (g.seededDerivation seed).cut h.rules.contains =
      (m.seededDerivation seed).cut h.rules.contains := by
  refine ⟨⟨generateSeeded_eq_map_tell g seed, generateSeeded_eq_map_tell m seed⟩,
    ⟨isDerivation_seededDerivation g seed, root_seededDerivation g seed⟩,
    ⟨isDerivation_seededDerivation m seed, root_seededDerivation m seed⟩, ?_⟩
  have hstart : m.startSymbol = g.startSymbol.promote h.rules.contains := by
    rw [startSymbol, startSymbol, Symbol.promote, (merge_eq_ok_iff.mp hm).2.1]
  rw [seededDerivation, seededDerivation, hstart]
  exact cut_derive_promote hm (Resolves.covers (.inl rfl)) _

/-- The built-in grammar, merged into one with a noun of its own and with two of its names as
literals, overrides the noun and turns the literals into references. -/
theorem cut_seededDerivation_merge_english :
    ∃ g m, ofRules "Fable" [("Fable", ["the Noun said that S", "NP ran"]), ("Noun", ["fox"])] =
        .ok g ∧
      g.merge english = .ok m ∧
      m.IsDerivation (m.seededDerivation 7) ∧ (m.seededDerivation 7).root = m.startSymbol ∧
      (g.seededDerivation 7).cut english.rules.contains =
        (m.seededDerivation 7).cut english.rules.contains := by
  have hm : ((resultOf (ofRules "Fable" [("Fable", ["the Noun said that S", "NP ran"]),
      ("Noun", ["fox"])]) (by decide +kernel)).merge english).isOk = true := by
    decide +kernel
  obtain ⟨-, -, ⟨hderivation, hroot⟩, hcut⟩ :=
    cut_seededDerivation_merge (eq_ok_resultOf _ hm) 7
  exact ⟨_, _, eq_ok_resultOf _ _, eq_ok_resultOf _ hm, hderivation, hroot, hcut⟩

end Grammar

end RandomSentences
