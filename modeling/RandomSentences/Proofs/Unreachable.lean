import RandomSentences.Proofs.ByteOrder
import RandomSentences.Proofs.Listing
import RandomSentences.Proofs.Reach

/-!
# The rules that are listed as unreachable

`Grammar.unreachable_eq_unseen` puts together what is known of the search from the start symbol. It
comes to an end: each round leaves one round less, and at first there is one for the start and one
for each reference of the grammar, whatever circles and shared rules there might be. What it leaves
unseen is listed, in the order of bytes. And these are the rules that the start symbol does not lead
to by following the references in all alternatives of each rule.
-/

namespace RandomSentences.Grammar

variable {g : Grammar} {name next : String}

/-- `g.RefersTo name next`: some alternative of the rule `name` refers to the rule `next`. -/
def RefersTo (g : Grammar) (name next : String) : Prop :=
  ∃ alternatives, g.rule? name = some alternatives ∧
    ∃ alternative ∈ alternatives, Symbol.nonterminal next ∈ alternative

theorem refersTo_iff : g.RefersTo name next ↔ g.rules.RefersTo name next := by
  rw [Rules.RefersTo, Rules.mem_references_iff, Rules.alternatives,
    Std.ExtTreeMap.getD_eq_getD_getElem?, RefersTo, rule?]
  cases g.rules[name]? <;> simp

theorem refersTo_eq (g : Grammar) : g.RefersTo = g.rules.RefersTo := by
  funext name next
  exact propext refersTo_iff

/-- How often the alternatives of all rules refer to a rule. -/
def referenceCount (g : Grammar) : Nat :=
  (g.ruleNames.flatMap g.rules.references).length

/-- No search from the start goes on for longer than one round for each reference, and one more. -/
theorem rounds_le_referenceCount {rounds : Nat} {last : Search}
    (h : Search.Rounds g.rules rounds ⟨[], [g.start]⟩ last) : rounds ≤ g.referenceCount + 1 := by
  have hall : g.rules.keys.filter (fun name => !([] : List String).contains name) = g.rules.keys :=
    List.filter_eq_self.mpr fun _ _ => rfl
  have hfirst : Search.work g.rules ⟨[], [g.start]⟩ = g.referenceCount + 1 := by
    rw [Search.work, Rules.unfollowed, hall, List.length_singleton, Nat.add_comm]
    rfl
  have hleft := h.work_eq
  omega

/-- What is unreachable is listed in increasing order. -/
theorem pairwise_lt_unreachable (g : Grammar) : g.unreachable.Pairwise (· < ·) := by
  have hkeys : g.ruleNames.Pairwise (· < ·) :=
    Std.ExtTreeMap.ordered_keys.imp fun h => compare_lt_iff_lt.mp h
  exact hkeys.filter _

/-- **The search from the start symbol ends and leaves exactly the unreachable rules unseen.** No
run of it has more rounds than there are references, and one more, and some run comes to where
nothing is pending. The rule names that are then not seen, sorted after they were met in any order,
are in strictly increasing order of their bytes, and they are the rules that no references lead to
from the start symbol in any number of steps. The start is not among them. -/
theorem unreachable_eq_unseen (g : Grammar) :
    (∀ rounds last, Search.Rounds g.rules rounds ⟨[], [g.start]⟩ last →
      rounds ≤ g.referenceCount + 1) ∧
    (∃ rounds last, Search.Rounds g.rules rounds ⟨[], [g.start]⟩ last ∧ last.pending = [] ∧
      ∀ listing : Listing g.rules,
        g.unreachable = listing.names.filter fun name => !last.seen.contains name) ∧
    (g.unreachable.Pairwise fun name other => Utf8.encode name < Utf8.encode other) ∧
    (∀ name, name ∈ g.unreachable ↔
      name ∈ g.ruleNames ∧ ¬ Relation.ReflTransGen g.RefersTo g.start name) ∧
    g.start ∉ g.unreachable := by
  have hmem : ∀ name, name ∈ g.unreachable ↔
      name ∈ g.ruleNames ∧ ¬ Relation.ReflTransGen g.RefersTo g.start name := by
    intro name
    rw [mem_unreachable_iff, refersTo_eq, ruleNames, Std.ExtTreeMap.mem_keys]
  refine ⟨fun rounds last => rounds_le_referenceCount, ?_, ?_, hmem, fun hstart => ?_⟩
  · obtain ⟨hpending, rounds, hrounds⟩ := Search.rounds_run g.rules ⟨[], [g.start]⟩
    refine ⟨rounds, _, hrounds, hpending, fun listing => ?_⟩
    rw [listing.names_eq]
    rfl
  · exact g.pairwise_lt_unreachable.imp fun h => Utf8.encode_lt_encode_iff.mpr h
  · exact ((hmem g.start).mp hstart).2 .refl

end RandomSentences.Grammar
