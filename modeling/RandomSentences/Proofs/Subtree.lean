import RandomSentences.Proofs.Template
import RandomSentences.Proofs.Unreachable

/-!
# Derivations within derivations

A derivation is made of others: those of the symbols of the alternative that was picked, and in turn
their parts. `Derivation.Within` is this relation, and a derivation *expands* a rule, or *picks* an
alternative of it, if this is done anywhere within it. What is within a derivation from a rule can
be reached from this rule along references (`led_of_within`).

The converse takes more: a derivation of some rule has to be completed to one from a rule that leads
to it. A symbol of a grammar has always some derivation, so the other symbols of an alternative can
be given one each (`exists_rule_of_part`), and this is done at each reference on the way
(`exists_isDerivation_of_led`).

Which derivations there are does not depend on the sources that choices can come from:
`isDerivation_iff_exists_derive` says that a grammar admits those, and no others, that are picked
with some choices.
-/

namespace RandomSentences

namespace Derivation

/-- `part.Within whole`: the derivation is another one, or within one of its parts. -/
inductive Within : Derivation → Derivation → Prop
  | refl (d : Derivation) : Within d d
  | part {d part : Derivation} {name : String} {index : Nat} {parts : List Derivation}
      (hpart : part ∈ parts) (h : Within d part) : Within d (.rule name index parts)

/-- At some place the derivation picks the alternative of a rule at an index. -/
def Picks (d : Derivation) (name : String) (index : Nat) : Prop :=
  ∃ parts, Within (.rule name index parts) d

/-- The derivation contains a rule: at some place one of the rule's alternatives is picked. -/
def Expands (d : Derivation) (name : String) : Prop :=
  ∃ index, d.Picks name index

variable {d part whole : Derivation}

/-- The leaves of what is within a derivation are leaves of the derivation. -/
theorem Within.mem_leaves {leaf : Leaf} (h : d.Within whole) (hleaf : leaf ∈ d.leaves) :
    leaf ∈ whole.leaves := by
  induction h with
  | refl => exact hleaf
  | part hpart _ ih =>
    rw [leaves, leavesAll_eq_flatMap]
    exact List.mem_flatMap.mpr ⟨_, hpart, ih⟩

end Derivation

namespace Grammar

variable {g : Grammar} {d part whole : Derivation} {name top : String} {index : Nat}
  {alternatives : List Alternative} {alternative : Alternative}

/-! ### Down from the root -/

/-- A rule within a derivation is one that references lead to from the root, a rule as well. -/
theorem led_of_within (hwhole : g.IsDerivation whole) (h : d.Within whole)
    (hd : d.root = .nonterminal name) :
    ∃ top, whole.root = .nonterminal top ∧ Relation.ReflTransGen g.RefersTo top name := by
  induction h with
  | refl => exact ⟨name, hd, .refl⟩
  | @part part top index parts hpart _ ih =>
    cases hwhole with
    | rule hrule halternative hparts =>
      obtain ⟨next, hnext, hled⟩ := ih (hparts part hpart)
      have hsymbol : Symbol.nonterminal next ∈ parts.map Derivation.root :=
        hnext ▸ List.mem_map_of_mem hpart
      have hrefers : g.RefersTo top next :=
        ⟨_, hrule, _, List.mem_of_getElem? halternative, hsymbol⟩
      exact ⟨top, rfl, .head hrefers hled⟩

/-! ### Up to the root -/

/-- A symbol with its rules has a derivation. -/
theorem exists_isDerivation {s : Symbol} (h : g.Covers s) : ∃ d, g.IsDerivation d ∧ d.root = s :=
  ⟨g.derive s (NumberStream.ofSeed 0), isDerivation_derive h _, root_derive h _⟩

/-- A derivation for each symbol: a given one for its own root, and some other for the rest. -/
def beside (g : Grammar) (d : Derivation) (s : Symbol) : Derivation :=
  if s = d.root then d else g.derive s (NumberStream.ofSeed 0)

theorem beside_root (g : Grammar) (d : Derivation) : g.beside d d.root = d :=
  if_pos rfl

theorem root_beside {s : Symbol} (h : g.Covers s) : (g.beside d s).root = s := by
  unfold beside
  split
  · rename_i hs
    exact hs.symm
  · exact root_derive h _

theorem isDerivation_beside {s : Symbol} (h : g.Covers s) (hd : g.IsDerivation d) :
    g.IsDerivation (g.beside d s) := by
  unfold beside
  split
  · exact hd
  · exact isDerivation_derive h _

/-- A derivation of some symbol of an alternative is a part of one that picks this alternative. -/
theorem exists_rule_of_part (hrule : g.rules[name]? = some alternatives)
    (halternative : alternatives[index]? = some alternative) (hd : g.IsDerivation d)
    (hroot : d.root ∈ alternative) :
    ∃ parts, d ∈ parts ∧ g.IsDerivation (.rule name index parts) := by
  have hcovers : ∀ s ∈ alternative, g.Covers s := fun s hs =>
    covers_of_mem hrule (List.mem_of_getElem? halternative) hs
  refine ⟨alternative.map (g.beside d), ?_, .rule hrule ?_ ?_⟩
  · exact List.mem_map.mpr ⟨d.root, hroot, g.beside_root d⟩
  · have hroots : (alternative.map (g.beside d)).map Derivation.root = alternative := by
      rw [List.map_map]
      exact (List.map_congr_left fun s hs => root_beside (hcovers s hs)).trans (List.map_id _)
    rw [hroots, halternative]
  · intro part hpart
    obtain ⟨s, hs, rfl⟩ := List.mem_map.mp hpart
    exact isDerivation_beside (hcovers s hs) hd

/-- Every alternative of a rule is picked by some derivation. -/
theorem exists_isDerivation_rule (hrule : g.rules[name]? = some alternatives)
    (halternative : alternatives[index]? = some alternative) :
    ∃ parts, g.IsDerivation (.rule name index parts) := by
  have hmem := List.mem_of_getElem? halternative
  obtain ⟨s, hs⟩ := List.exists_mem_of_ne_nil alternative
    (g.wellFormed.alternative_ne_nil name alternatives hrule alternative hmem)
  obtain ⟨d, hd, rfl⟩ := exists_isDerivation (covers_of_mem hrule hmem hs)
  obtain ⟨parts, -, hparts⟩ := exists_rule_of_part hrule halternative hd hs
  exact ⟨parts, hparts⟩

/-- A derivation of a rule is within one from each rule that references lead from to it. -/
theorem exists_isDerivation_of_led (h : Relation.ReflTransGen g.RefersTo top name)
    (hd : g.IsDerivation d) (hroot : d.root = .nonterminal name) :
    ∃ whole, g.IsDerivation whole ∧ whole.root = .nonterminal top ∧ d.Within whole := by
  induction h using Relation.ReflTransGen.head_induction_on with
  | refl => exact ⟨d, hd, hroot, .refl d⟩
  | @head top next hrefers _ ih =>
    obtain ⟨part, hpart, hnext, hwithin⟩ := ih
    obtain ⟨alternatives, hrule, alternative, hmem, hs⟩ := hrefers
    obtain ⟨index, hindex⟩ := List.getElem?_of_mem hmem
    obtain ⟨parts, hin, hwhole⟩ := exists_rule_of_part hrule hindex hpart (hnext ▸ hs)
    exact ⟨_, hwhole, rfl, .part hin hwithin⟩

end Grammar

/-! ### Derivations and choices -/

/-- A source of choices that follows derivations, one after the other. -/
structure Guide where
  derivations : List Derivation

namespace Guide

/-- The index that is to be picked at a symbol, and the derivations of the parts. -/
def next (guide : Guide) : Nat × Guide :=
  match guide.derivations with
  | .rule _ index parts :: _ => (index, ⟨parts⟩)
  | _ => (0, guide)

instance : ChoiceSource Guide where
  index guide bound pos := (⟨guide.next.1 % bound, Nat.mod_lt _ pos⟩, guide.next.2)
  split guide := (⟨guide.derivations.take 1⟩, ⟨guide.derivations.tail⟩)

theorem splits_eq (derivations : List Derivation) :
    ChoiceSource.splits (Guide.mk derivations) derivations.length =
      derivations.map fun d => Guide.mk [d] := by
  induction derivations with
  | nil => rfl
  | cons d derivations ih =>
    rw [List.length_cons, ChoiceSource.splits, List.map_cons, ← ih]
    rfl

end Guide

namespace Grammar

variable {g : Grammar} {d : Derivation}

/-- A source of choices that follows a derivation picks it. -/
theorem derive_guide (hd : g.IsDerivation d) : g.derive d.root (Guide.mk [d]) = d := by
  induction hd with
  | word category => rw [Derivation.root, derive_terminal]
  | literal text => rw [Derivation.root, derive_literal]
  | @rule name alternatives index parts hrule halternative hparts ih =>
    have hlt : index < alternatives.length := (List.getElem?_eq_some_iff.mp halternative).1
    have hpick : ChoiceSource.pick (Guide.mk [.rule name index parts]) alternatives.length =
        (index, ⟨parts⟩) := by
      rw [ChoiceSource.pick_of_pos _ (Nat.zero_lt_of_lt hlt)]
      exact congrArg (·, Guide.mk parts) (Nat.mod_eq_of_lt hlt)
    have hparts' : List.zipWith g.derive (parts.map Derivation.root)
        (parts.map fun d => Guide.mk [d]) = parts := by
      rw [List.zipWith_map, List.zipWith_self]
      exact (List.map_congr_left ih).trans (List.map_id _)
    rw [Derivation.root, derive_nonterminal_pick hrule (by rw [hpick]; exact halternative), hpick,
      List.length_map, Guide.splits_eq, hparts']

/-- The derivations that a grammar admits below a symbol with its rules are those that are picked
for it with some choices. -/
theorem isDerivation_iff_exists_derive {s : Symbol} (h : g.Covers s) :
    g.IsDerivation d ∧ d.root = s ↔ ∃ guide : Guide, g.derive s guide = d := by
  constructor
  · rintro ⟨hd, rfl⟩
    exact ⟨⟨[d]⟩, derive_guide hd⟩
  · rintro ⟨guide, rfl⟩
    exact ⟨isDerivation_derive h guide, root_derive h guide⟩

end Grammar

end RandomSentences
