import RandomSentences.Proofs.Writing

/-!
# Merging several grammars

Every merge writes the rules of two grammars as tokens and reads them anew, given the names of both,
and every merge looks for cycles again. So it is not plain that grammars can be merged in another
grouping, and indeed a third grammar may break a cycle between the first two. The converse does not
happen: `Grammar.merge_assoc` says that whenever three grammars can be merged from left to right,
the second can be merged with the third, and merging the result into the first gives the same
grammar.

* **Tokens.** The tokens of a merged grammar are those of both (`Grammar.tokens_merge`), and later
  tokens win, which is associative. So only the cycles are left to be looked at.
* **References.** Rules refer to more names the more names there are. What the rules of the second
  grammar refer to, they refer to also below the rules of a first one
  (`Tokens.refersTo_union_right`), so a cycle of the last two grammars is one of all three.
-/

namespace RandomSentences

/-! ### Tokens of which the later win -/

namespace Tokens

variable {a b : Tokens}

theorem union_assoc (a b c : Tokens) : a ∪ b ∪ c = a ∪ (b ∪ c) := by
  refine Std.ExtTreeMap.ext_getElem? fun name => ?_
  simp only [Std.ExtTreeMap.getElem?_union, Option.or_assoc]

theorem union_self (a : Tokens) : a ∪ a = a := by
  refine Std.ExtTreeMap.ext_getElem? fun name => ?_
  rw [Std.ExtTreeMap.getElem?_union, Option.or_self]

theorem fault?_union (ha : a.fault? = none) (hb : b.fault? = none) : (a ∪ b).fault? = none := by
  rw [fault?_eq_none_iff] at ha hb ⊢
  intro name alternatives hrule
  rw [Std.ExtTreeMap.getElem?_union, Option.or_eq_some_iff] at hrule
  rcases hrule with hrule | ⟨-, hrule⟩
  · exact hb name alternatives hrule
  · exact ha name alternatives hrule

/-- What rules refer to, they refer to also where they win over other rules. -/
theorem refersTo_union_right {name next : String} (h : b.classify.RefersTo name next) :
    (a ∪ b).classify.RefersTo name next := by
  rw [Rules.RefersTo, mem_references_classify_iff] at h ⊢
  obtain ⟨hbraced, hnext, alternatives, hrule, hmem⟩ := h
  refine ⟨hbraced, ?_, alternatives, ?_, hmem⟩
  · exact Std.ExtTreeMap.mem_union_iff.mpr (.inr hnext)
  · rw [Std.ExtTreeMap.getElem?_union, hrule, Option.some_or]

/-- A cycle of rules is a cycle also where they win over other rules. -/
theorem cycle?_eq_none_of_union (h : (a ∪ b).classify.cycle? = none) :
    b.classify.cycle? = none := by
  rw [Rules.cycle?_eq_none_iff] at h ⊢
  intro name hcycle
  exact h name (hcycle.lift id fun _ _ => refersTo_union_right)

end Tokens

namespace Grammar

variable {g h m : Grammar}

/-! ### Building from the same tokens -/

theorem ofTokens_congr {start start' : String} {tokens tokens' : Tokens}
    {hwords : tokens.AreWords} {hwords' : tokens'.AreWords} (hstart : start = start')
    (htokens : tokens = tokens') :
    ofTokens start tokens hwords = ofTokens start' tokens' hwords' := by
  subst hstart htokens
  rfl

/-- Nothing but a cycle keeps tokens without a fault from becoming a grammar. -/
theorem ofTokens_eq_error_iff {start : String} {tokens : Tokens} {hwords : tokens.AreWords}
    (hstart : start ∈ tokens) (hfault : tokens.fault? = none) {cause : GrammarError} :
    ofTokens start tokens hwords = .error cause ↔
      ∃ cycle, tokens.classify.cycle? = some cycle ∧ cause = .cycle cycle := by
  unfold ofTokens
  rw [dif_pos hstart]
  split
  · rename_i fault hsome
    exact absurd (hfault.symm.trans hsome) (by simp)
  · split
    · rename_i cycle hcycle
      simp [hcycle, eq_comm]
    · rename_i hcycle
      simp [hcycle]

/-- The tokens of two grammars have no fault together. -/
theorem fault?_union_tokens (g h : Grammar) : (g.rules.tokens ∪ h.rules.tokens).fault? = none :=
  Tokens.fault?_union g.wellFormed.fault?_tokens h.wellFormed.fault?_tokens

theorem start_mem_union_tokens (g h : Grammar) : g.start ∈ g.rules.tokens ∪ h.rules.tokens := by
  have hstart : g.start ∈ g.rules.tokens := by
    rw [← Std.ExtTreeMap.contains_iff_mem, contains_tokens]
    exact g.start_mem
  exact Std.ExtTreeMap.mem_union_iff.mpr (.inl hstart)

/-- Grammars can be merged exactly if their tokens have no cycle together. -/
theorem exists_merge_eq_ok_iff :
    (∃ m, g.merge h = .ok m) ↔ (g.rules.tokens ∪ h.rules.tokens).classify.cycle? = none := by
  rw [merge, exists_ofTokens_eq_ok_iff]
  exact ⟨fun hall => hall.2.2, fun hcycle =>
    ⟨start_mem_union_tokens g h, fault?_union_tokens g h, hcycle⟩⟩

/-- Merging fails on nothing but a cycle of the tokens of both grammars. -/
theorem merge_eq_error_iff {cause : GrammarError} :
    g.merge h = .error cause ↔ ∃ cycle,
      (g.rules.tokens ∪ h.rules.tokens).classify.cycle? = some cycle ∧ cause = .cycle cycle :=
  ofTokens_eq_error_iff (start_mem_union_tokens g h) (fault?_union_tokens g h)

/-- Merging two grammars is building one from what both were built from. -/
theorem merge_eq_ofRules_append {start other : String} {first second : Draft}
    (hg : ofRules start first = .ok g) (hh : ofRules other second = .ok h) :
    g.merge h = ofRules start (first ++ second) := by
  have hstart : g.start = start := (ofTokens_eq_ok_iff.mp hg).2.1
  rw [merge, ofRules]
  refine ofTokens_congr hstart ?_
  rw [tokens_ofRules hg, tokens_ofRules hh, Draft.ofPairs_append]

/-! ### The laws of merging -/

/-- Whenever three grammars can be merged from left to right, they can from right to left, and the
result is the same. -/
theorem exists_merge_right {a b c ab m : Grammar} (hab : a.merge b = .ok ab)
    (hm : ab.merge c = .ok m) : ∃ bc, b.merge c = .ok bc ∧ a.merge bc = .ok m := by
  have hall : ab.rules.tokens ∪ c.rules.tokens =
      a.rules.tokens ∪ (b.rules.tokens ∪ c.rules.tokens) := by
    rw [tokens_merge hab, Tokens.union_assoc]
  have hacyclic : (b.rules.tokens ∪ c.rules.tokens).classify.cycle? = none := by
    have hcycle := exists_merge_eq_ok_iff.mp ⟨m, hm⟩
    rw [hall] at hcycle
    exact Tokens.cycle?_eq_none_of_union hcycle
  obtain ⟨bc, hbc⟩ := exists_merge_eq_ok_iff.mpr hacyclic
  have hstart : a.start = ab.start := (merge_eq_ok_iff.mp hab).2.1.symm
  have htokens : a.rules.tokens ∪ bc.rules.tokens = ab.rules.tokens ∪ c.rules.tokens := by
    rw [tokens_merge hbc, hall]
  refine ⟨bc, hbc, ?_⟩
  calc a.merge bc = ab.merge c := ofTokens_congr hstart htokens
    _ = .ok m := hm

/-- **Merging is associative where it succeeds from left to right.** Whenever a first grammar can be
merged with a second, and the result with a third, the second can be merged with the third, and
merging the result into the first gives the same grammar: the same start symbol, and the same rules
with the same symbols. So a failure to merge the last two is one from left to right, too. A grammar
that is merged into itself stays as it is. -/
theorem merge_assoc (a b c : Grammar) :
    (∀ ab m, a.merge b = .ok ab → ab.merge c = .ok m →
      ∃ bc, b.merge c = .ok bc ∧ a.merge bc = .ok m) ∧
    (∀ cause, b.merge c = .error cause →
      ∃ other, (a.merge b >>= fun ab => ab.merge c) = .error other) ∧
    a.merge a = .ok a := by
  refine ⟨fun ab m => exists_merge_right, fun cause hbc => ?_, ?_⟩
  · cases hab : a.merge b with
    | error other => exact ⟨other, rfl⟩
    | ok ab =>
      cases hm : ab.merge c with
      | error other => exact ⟨other, hm⟩
      | ok m =>
        obtain ⟨bc, hok, -⟩ := exists_merge_right hab hm
        exact absurd (hbc.symm.trans hok) (by simp)
  · exact ofTokens_eq_ok_of_eq_tokens _ (Tokens.union_self _)

/-- A grammar of beasts and one of foxes, each of which turns a literal of the grammars before it
into a reference, and another one of foxes that leads back to the beasts. -/
theorem merge_assoc_beasts :
    ∃ a b c d ab m, ofRules "S" [("S", ["who sees the Beast"])] = .ok a ∧
      ofRules "Beast" [("Beast", ["old Fox", "Fox"])] = .ok b ∧
      ofRules "Fox" [("Fox", ["\x7bnouns\x7d"]), ("sees", ["hears"])] = .ok c ∧
      ofRules "Fox" [("Fox", ["no Beast"])] = .ok d ∧
      a.merge b = .ok ab ∧ ab.merge c = .ok m ∧
      (∃ bc, b.merge c = .ok bc ∧ a.merge bc = .ok m) ∧
      ∃ cause other, b.merge d = .error cause ∧
        (a.merge b >>= fun ab => ab.merge d) = .error other := by
  have ha : (ofRules "S" [("S", ["who sees the Beast"])]).isOk = true := by decide +kernel
  have hb : (ofRules "Beast" [("Beast", ["old Fox", "Fox"])]).isOk = true := by decide +kernel
  have hc : (ofRules "Fox" [("Fox", ["\x7bnouns\x7d"]), ("sees", ["hears"])]).isOk = true := by
    decide +kernel
  have hd : (ofRules "Fox" [("Fox", ["no Beast"])]).isOk = true := by decide +kernel
  have hab : ((resultOf _ ha).merge (resultOf _ hb)).isOk = true := by decide +kernel +revert
  have hm : ((resultOf _ hab).merge (resultOf _ hc)).isOk = true := by decide +kernel +revert
  have hbd : ((resultOf _ hb).merge (resultOf _ hd)).isOk = false := by decide +kernel +revert
  obtain ⟨cause, hcause⟩ : ∃ cause, (resultOf _ hb).merge (resultOf _ hd) = .error cause := by
    cases hmerge : (resultOf _ hb).merge (resultOf _ hd) with
    | error cause => exact ⟨cause, rfl⟩
    | ok bd => simp [hmerge, Except.isOk, Except.toBool] at hbd
  obtain ⟨other, hother⟩ := (merge_assoc (resultOf _ ha) _ _).2.1 cause hcause
  have hright := (merge_assoc _ _ _).1 _ _ (eq_ok_resultOf _ hab) (eq_ok_resultOf _ hm)
  exact ⟨_, _, _, _, _, _, eq_ok_resultOf _ ha, eq_ok_resultOf _ hb, eq_ok_resultOf _ hc,
    eq_ok_resultOf _ hd, eq_ok_resultOf _ hab, eq_ok_resultOf _ hm, hright, cause, other, hcause,
    hother⟩

/-- From right to left more can be merged: here the third grammar breaks a cycle of the first
two. -/
example :
    (do
      let a ← ofRules "S" [("S", ["the Beast"]), ("Beast", ["fox"])]
      let b ← ofRules "Beast" [("Beast", ["what S"])]
      let c ← ofRules "S" [("S", ["sleeps"])]
      a.merge (← b.merge c)).isOk = true ∧
    (do
      let a ← ofRules "S" [("S", ["the Beast"]), ("Beast", ["fox"])]
      let b ← ofRules "Beast" [("Beast", ["what S"])]
      let c ← ofRules "S" [("S", ["sleeps"])]
      (← a.merge b).merge c).isOk = false := by
  decide +kernel

end Grammar

end RandomSentences
