import RandomSentences.Grammar.Basic
import RandomSentences.Random.Choice

/-!
# Derivations

A derivation records how a symbol was expanded: at each rule, which alternative was picked and
how that alternative's symbols were expanded in turn. Its leaves are the literals and the
categories to draw words from, in the order of the sentence.

`Grammar.IsDerivation` says which trees a grammar admits below a symbol, and `Grammar.derive`
picks one of them with a source of choices: at a rule it first takes the index of an
alternative and then splits off one source for each symbol of that alternative, from left to
right, whatever kind of symbol it is. So a choice made in one part of the tree never depends on
another part.
-/

namespace RandomSentences

/-- How a symbol was expanded. -/
inductive Derivation where
  /-- A word of a category is to be drawn. -/
  | word (category : Category)
  /-- A text that stands for itself. -/
  | literal (text : String)
  /-- The alternative of a rule at some index, with its symbols expanded. -/
  | rule (name : String) (index : Nat) (parts : List Derivation)
  deriving Repr

/-- A part of a sentence that is not expanded further. -/
inductive Leaf where
  | word (category : Category)
  | literal (text : String)
  deriving DecidableEq, Repr

namespace Derivation

/-- The symbol that a derivation expands. -/
def root : Derivation → Symbol
  | word category => .terminal category
  | literal text => .literal text
  | rule name _ _ => .nonterminal name

mutual

/-- The leaves of a derivation, from left to right. -/
def leaves : Derivation → List Leaf
  | word category => [.word category]
  | literal text => [.literal text]
  | rule _ _ parts => leavesAll parts

/-- The leaves of a list of derivations, from left to right. -/
def leavesAll : List Derivation → List Leaf
  | [] => []
  | part :: parts => leaves part ++ leavesAll parts

end

mutual

/-- The number of rules that are expanded within each other at the deepest place. -/
def depth : Derivation → Nat
  | word _ => 0
  | literal _ => 0
  | rule _ _ parts => depthAll parts + 1

/-- The greatest depth in a list of derivations. -/
def depthAll : List Derivation → Nat
  | [] => 0
  | part :: parts => max (depth part) (depthAll parts)

end

end Derivation

namespace Grammar

/-- The derivations that a grammar admits: at each rule they pick one of its alternatives and
expand exactly its symbols, in order. -/
inductive IsDerivation (g : Grammar) : Derivation → Prop where
  | word (category : Category) : IsDerivation g (.word category)
  | literal (text : String) : IsDerivation g (.literal text)
  | rule {name : String} {alternatives : List Alternative} {index : Nat}
      {parts : List Derivation} (hrule : g.rules[name]? = some alternatives)
      (halternative : alternatives[index]? = some (parts.map Derivation.root))
      (hparts : ∀ part ∈ parts, IsDerivation g part) : IsDerivation g (.rule name index parts)

/-- A symbol of a grammar, for recursion along its parts. -/
structure Node (g : Grammar) where
  symbol : Symbol

instance (g : Grammar) : WellFoundedRelation g.Node where
  rel a b := g.IsPart a.symbol b.symbol
  wf := InvImage.wf Node.symbol g.wellFounded_isPart

theorem length_pos_of_getElem? (g : Grammar) {name : String} {alternatives : List Alternative}
    (h : g.rules[name]? = some alternatives) : 0 < alternatives.length :=
  List.length_pos_iff.2 (g.wellFormed.ne_nil name alternatives h)

variable {γ : Type} [ChoiceSource γ]

/-- The derivation of a symbol that a source of choices picks. A name without a rule stands
for itself. -/
def derive (g : Grammar) (s : Symbol) (source : γ) : Derivation :=
  match s with
  | .terminal category => .word category
  | .literal text => .literal text
  | .nonterminal name =>
    match hrule : g.rules[name]? with
    | none => .literal name
    | some alternatives =>
      let (index, rest) :=
        ChoiceSource.index source alternatives.length (g.length_pos_of_getElem? hrule)
      let alternative := alternatives[index]
      -- every symbol gets a source, also one whose expansion leaves no choice
      .rule name index
        (List.zipWith (fun ⟨part, _⟩ partSource => derive g part partSource)
          alternative.attach (ChoiceSource.splits rest alternative.length))
  termination_by (⟨s⟩ : g.Node)
  decreasing_by
    exact ⟨name, alternatives, alternatives[index], rfl, hrule, List.getElem_mem _, by assumption⟩

/-! ### One step of a derivation -/

@[simp]
theorem derive_terminal (g : Grammar) (category : Category) (source : γ) :
    g.derive (.terminal category) source = .word category := by
  rw [derive]

@[simp]
theorem derive_literal (g : Grammar) (text : String) (source : γ) :
    g.derive (.literal text) source = .literal text := by
  rw [derive]

theorem derive_nonterminal_of_not_mem (g : Grammar) {name : String} (source : γ)
    (h : g.rules[name]? = none) : g.derive (.nonterminal name) source = .literal name := by
  rw [derive]
  split
  · rfl
  · rename_i hsome
    exact absurd (h.symm.trans hsome) (by simp)

/-- Attaching membership proofs to the first list of a combination changes nothing. -/
theorem zipWith_attach {α β δ : Type} (f : α → β → δ) (as : List α) (bs : List β) :
    List.zipWith (fun a b => f a.val b) as.attach bs = List.zipWith f as bs := by
  rw [← List.zipWith_map_left, List.attach_map_subtype_val]

/-- At a rule the index of an alternative is taken first, and then a source is split off for
each symbol of that alternative. -/
theorem derive_nonterminal (g : Grammar) {name : String} {alternatives : List Alternative}
    (source : γ) (h : g.rules[name]? = some alternatives) :
    let choice := ChoiceSource.index source alternatives.length (g.length_pos_of_getElem? h)
    let alternative := alternatives[choice.1]
    g.derive (.nonterminal name) source = .rule name choice.1
      (List.zipWith g.derive alternative (ChoiceSource.splits choice.2 alternative.length)) := by
  rw [derive]
  split
  · rename_i hnone
    exact absurd (hnone.symm.trans h) (by simp)
  · rename_i alternatives' h'
    obtain rfl : alternatives' = alternatives := Option.some_inj.1 (h'.symm.trans h)
    simp only [zipWith_attach]

end Grammar

end RandomSentences
