import RandomSentences.Proofs.Cycle
import RandomSentences.Grammar.Derivation

/-!
# Derivations that a grammar picks

`Grammar.derive` gives every symbol a derivation, even a name without a rule, which then stands
for itself. From a symbol that a grammar *resolves*, one that a token is read as or the start
symbol, this never comes to pass: the derivation is one that the grammar admits, and its root is
the symbol (`isDerivation_derive`, `root_derive`).

Every derivation that a grammar admits has at most as many rules within each other as the grammar
has rules (`depth_le_size`). The names on the way down to a place of the tree are never met again
below it, since no rule leads back to itself; so each step down marks another rule name, and
`Rules.unmarked` counts how many are left.
-/

namespace RandomSentences

namespace ChoiceSource

variable {γ : Type} [ChoiceSource γ]

/-- An index as a number, and the source for later choices. Nothing is taken from the source if
there is no index below the bound. -/
def pick (source : γ) (bound : Nat) : Nat × γ :=
  if pos : 0 < bound then
    ((index source bound pos).1, (index source bound pos).2)
  else
    (0, source)

theorem pick_of_pos (source : γ) {bound : Nat} (pos : 0 < bound) :
    pick source bound = ((index source bound pos).1.val, (index source bound pos).2) :=
  dif_pos pos

theorem pick_lt (source : γ) {bound : Nat} (pos : 0 < bound) : (pick source bound).1 < bound := by
  rw [pick_of_pos source pos]
  exact Fin.isLt _

end ChoiceSource

namespace Grammar

variable {g : Grammar} {γ : Type} [ChoiceSource γ]

/-- An expansion can start from the symbol: it is the start symbol, or a token is read as it. -/
def Resolves (g : Grammar) (s : Symbol) : Prop :=
  s = g.startSymbol ∨ ∃ token, g.resolveToken token = .ok s

/-- The symbol refers to no name without a rule. -/
def Covers (g : Grammar) (s : Symbol) : Prop :=
  ∀ name, s = .nonterminal name → name ∈ g.rules

/-! ### Symbols with their rules -/

theorem Resolves.covers {s : Symbol} (h : g.Resolves s) : g.Covers s := by
  rintro name rfl
  rcases h with h | ⟨token, h⟩
  · obtain rfl : name = g.start := by simpa [startSymbol] using h
    exact g.start_mem
  · unfold resolveToken at h
    split at h
    · simp at h
    · obtain ⟨rfl, -, hrule⟩ := ofToken_eq_nonterminal_iff.mp (Except.ok.inj h)
      exact hrule

/-- A grammar's own symbols refer to its rules. -/
theorem covers_of_mem {name : String} {alternatives : List Alternative}
    {alternative : Alternative} {s : Symbol} (hrule : g.rules[name]? = some alternatives)
    (ha : alternative ∈ alternatives) (hs : s ∈ alternative) : g.Covers s := by
  rintro next rfl
  have hread := (g.wellFormed.ofToken_text name alternatives hrule alternative ha _ hs).1
  exact (ofToken_eq_nonterminal_iff.mp hread).2.2

/-! ### The derivation that is picked -/

/-- At a rule, the alternative with the picked index is expanded, each of its symbols from a source
that is split off from what is left. -/
theorem derive_nonterminal_pick {name : String} {alternatives : List Alternative}
    {alternative : Alternative} {source : γ} (hrule : g.rules[name]? = some alternatives)
    (halternative : alternatives[(ChoiceSource.pick source alternatives.length).1]? =
      some alternative) :
    g.derive (.nonterminal name) source =
      .rule name (ChoiceSource.pick source alternatives.length).1
        (List.zipWith g.derive alternative
          (ChoiceSource.splits (ChoiceSource.pick source alternatives.length).2
            alternative.length)) := by
  have hpos := g.length_pos_of_getElem? hrule
  rw [ChoiceSource.pick_of_pos source hpos] at halternative ⊢
  have hpicked : alternatives[(ChoiceSource.index source _ hpos).1] = alternative :=
    List.getElem_eq_iff _ |>.mpr halternative
  rw [derive_nonterminal g source hrule, hpicked]

/-- At a name with a rule, some alternative of the rule is picked. -/
theorem exists_picked {name : String} (h : name ∈ g.rules) (source : γ) :
    ∃ alternatives, g.rules[name]? = some alternatives ∧ ∃ alternative ∈ alternatives,
      alternatives[(ChoiceSource.pick source alternatives.length).1]? = some alternative := by
  have hrule := Std.ExtTreeMap.getElem?_eq_some_getElem h
  have hlt := ChoiceSource.pick_lt source (g.length_pos_of_getElem? hrule)
  exact ⟨_, hrule, _, List.getElem_mem hlt, List.getElem?_eq_getElem hlt⟩

theorem root_derive {s : Symbol} (h : g.Covers s) (source : γ) : (g.derive s source).root = s := by
  cases s with
  | terminal category => rw [derive_terminal, Derivation.root]
  | literal text => rw [derive_literal, Derivation.root]
  | nonterminal name =>
    obtain ⟨alternatives, hrule, alternative, -, hpick⟩ := exists_picked (h name rfl) source
    rw [derive_nonterminal_pick hrule hpick, Derivation.root]

/-- The parts of a rule's derivation have the symbols of the alternative as their roots. -/
theorem map_root_zipWith_derive {alternative : Alternative} {sources : List γ}
    (h : ∀ s ∈ alternative, g.Covers s) (hlength : sources.length = alternative.length) :
    (List.zipWith g.derive alternative sources).map Derivation.root = alternative := by
  induction alternative generalizing sources with
  | nil => simp
  | cons s symbols ih =>
    cases sources with
    | nil => simp at hlength
    | cons source sources =>
      rw [List.zipWith_cons_cons, List.map_cons, root_derive (h s (List.mem_cons_self ..)),
        ih (fun t ht => h t (List.mem_cons_of_mem _ ht)) (by simpa using hlength)]

/-- The derivation that is picked for a symbol with its rules is one that the grammar admits. -/
theorem isDerivation_derive {s : Symbol} (h : g.Covers s) (source : γ) :
    g.IsDerivation (g.derive s source) := by
  induction s using g.wellFounded_isPart.induction generalizing source with
  | _ s ih =>
    cases s with
    | terminal category => rw [derive_terminal]; exact .word category
    | literal text => rw [derive_literal]; exact .literal text
    | nonterminal name =>
      obtain ⟨alternatives, hrule, alternative, hmem, hpick⟩ := exists_picked (h name rfl) source
      have hcovers : ∀ s ∈ alternative, g.Covers s := fun s hs => covers_of_mem hrule hmem hs
      rw [derive_nonterminal_pick hrule hpick]
      refine .rule hrule ?_ fun part hpart => ?_
      · rw [map_root_zipWith_derive hcovers (ChoiceSource.length_splits ..), hpick]
      · rw [← List.map_uncurry_zip_eq_zipWith] at hpart
        obtain ⟨⟨s, partSource⟩, hpair, rfl⟩ := List.mem_map.mp hpart
        have hs := (List.of_mem_zip hpair).1
        exact ih s ⟨name, _, _, rfl, hrule, hmem, hs⟩ (hcovers s hs) partSource

/-! ### The depth of a derivation -/

theorem depthAll_le {parts : List Derivation} {n : Nat} (h : ∀ part ∈ parts, part.depth ≤ n) :
    Derivation.depthAll parts ≤ n := by
  induction parts with
  | nil => simp [Derivation.depthAll]
  | cons part parts ih =>
    rw [Derivation.depthAll]
    exact Nat.max_le.mpr ⟨h part (List.mem_cons_self ..),
      ih fun other hother => h other (List.mem_cons_of_mem _ hother)⟩

/-- A derivation below a path of names that it never comes back to is at most as deep as there
are rule names off the path. -/
theorem depth_le_unmarked {d : Derivation} (hd : g.IsDerivation d) {path : List String}
    (hpath : ∀ name, d.root = .nonterminal name →
      ∀ other, Relation.ReflTransGen g.rules.RefersTo name other → other ∉ path) :
    d.depth ≤ g.rules.unmarked path := by
  induction hd generalizing path with
  | word category => simp [Derivation.depth]
  | literal text => simp [Derivation.depth]
  | @rule name alternatives index parts hrule halternative hparts ih =>
    have hname : name ∉ path := hpath name rfl name .refl
    have hmem : name ∈ g.rules := by
      rw [Std.ExtTreeMap.mem_iff_isSome_getElem?, hrule, Option.isSome_some]
    have hlt := Rules.unmarked_cons_lt hmem (by simpa using hname)
    rw [Derivation.depth]
    refine Nat.succ_le_of_lt (Nat.lt_of_le_of_lt (depthAll_le fun part hpart => ?_) hlt)
    refine ih part hpart fun next hnext other hother => ?_
    have hrefers : g.rules.RefersTo name next := by
      refine isReferencedBy_of_mem hrule (List.mem_of_getElem? halternative) ?_
      exact hnext ▸ List.mem_map_of_mem hpart
    -- coming back to the name would close a cycle
    have hne : other ≠ name := by
      rintro rfl
      exact Rules.not_transGen_of_wellFounded g.wellFounded other (.head' hrefers hother)
    have hnot := hpath name rfl other (.head hrefers hother)
    simpa using ⟨hne, hnot⟩

/-- A derivation has at most as many rules within each other as the grammar has rules. -/
theorem depth_le_size {d : Derivation} (hd : g.IsDerivation d) : d.depth ≤ g.size := by
  have h : d.depth ≤ g.rules.unmarked [] := depth_le_unmarked hd (by simp)
  have hsize : g.rules.unmarked [] = g.size := by
    simp [Rules.unmarked, size]
  rwa [hsize] at h

end Grammar

end RandomSentences
