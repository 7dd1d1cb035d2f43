import RandomSentences.Proofs.Subtree
import RandomSentences.Text.Offset

/-!
# What warnings mean

A warning is found by looking over the rules, one symbol after the other, and it says something
about all derivations. The first step from the one to the other is to read off what each kind of
warning is given for: a rule that no references lead to from the start symbol, a literal of some
rule, a category that is in no rule. The second step relates references and symbols to derivations,
in both directions. What is in a derivation is in the rules; and what is in a rule that the start
leads to is in a derivation from the start, since every alternative of such a rule is picked by one
(`exists_isDerivation_picks`).

`Grammar.lint_sound_complete` puts both steps together. It is about messages, as they are shown.
The last character of a message tells what kind of warning it is, so that no warning about a rule or
a category can be taken for another one.
-/

namespace RandomSentences

/-- The text is an ASCII capital letter, followed only by ASCII letters, digits and underscores. -/
def HasNameShape (text : String) : Prop :=
  ∃ c cs, text.toList = c :: cs ∧ ('A' ≤ c ∧ c ≤ 'Z') ∧
    ∀ d ∈ cs, ('A' ≤ d ∧ d ≤ 'Z') ∨ ('a' ≤ d ∧ d ≤ 'z') ∨ ('0' ≤ d ∧ d ≤ '9') ∨ d = '_'

theorem isUpper_iff {c : Char} : c.isUpper = true ↔ 'A' ≤ c ∧ c ≤ 'Z' :=
  decide_eq_true_iff

theorem isLower_iff {c : Char} : c.isLower = true ↔ 'a' ≤ c ∧ c ≤ 'z' :=
  (Bool.and_eq_true ..).to_iff.trans (and_congr decide_eq_true_iff decide_eq_true_iff)

theorem isAlphanum_iff {c : Char} :
    c.isAlphanum = true ↔
      ('A' ≤ c ∧ c ≤ 'Z') ∨ ('a' ≤ c ∧ c ≤ 'z') ∨ ('0' ≤ c ∧ c ≤ '9') := by
  have h : c.isAlphanum = ((c.isUpper || c.isLower) || c.isDigit) := rfl
  rw [h, Bool.or_eq_true, Bool.or_eq_true, isUpper_iff, isLower_iff, Text.isDigit_iff_le,
    or_assoc]

theorem looksLikeRuleName_iff {text : String} :
    looksLikeRuleName text = true ↔ HasNameShape text := by
  unfold looksLikeRuleName HasNameShape
  cases text.toList with
  | nil => simp
  | cons c cs => simp [isUpper_iff, isAlphanum_iff, or_assoc]

/-- The kind of a warning shows in the last character of its message. -/
theorem Warning.getLast?_message (warning : Warning) :
    warning.message.toList.getLast? = some (match warning with
      | unreachableRule _ _ => '\''
      | suspiciousLiteral _ _ => ')'
      | unusedCategory _ => 'd') := by
  cases warning with
  | unreachableRule rule start =>
    rw [message, String.toList_append, List.getLast?_append]
    rfl
  | suspiciousLiteral rule text =>
    rw [message, String.toList_append, List.getLast?_append]
    rfl
  | unusedCategory category =>
    rw [message, String.toList_append, List.getLast?_append]
    rfl

namespace Grammar

variable {g : Grammar} {name start text : String} {category : Category}

/-! ### What is warned about -/

theorem unreachableRule_mem_lint_iff :
    .unreachableRule name start ∈ g.lint ↔ start = g.start ∧ name ∈ g.unreachable := by
  have h : .unreachableRule name start ∈ g.lint ↔ name ∈ g.unreachable ∧ g.start = start := by
    simp [lint]
  rw [h, and_comm, eq_comm]

theorem suspiciousLiteral_mem_lint_iff :
    .suspiciousLiteral name text ∈ g.lint ↔ (name, text) ∈ g.suspiciousLiterals := by
  simp [lint]

theorem unusedCategory_mem_lint_iff :
    .unusedCategory category ∈ g.lint ↔ category ∉ g.categories := by
  simp [lint, category.mem_all]

/-- The categories of a grammar are those of its symbols. -/
theorem mem_categories_iff :
    category ∈ g.categories ↔ ∃ name, (name, .terminal category) ∈ g.rules.symbols := by
  have hcategory : ∀ s : Symbol, s.category? = some category ↔ s = .terminal category := by
    intro s
    cases s <;> simp [Symbol.category?]
  simp [categories, category.mem_all, hcategory]

/-- Among the warnings about a grammar, no other is shown as one about an unreachable rule. -/
theorem unreachableRule_mem_of_message_mem
    (h : (Warning.unreachableRule name g.start).message ∈ g.lint.map Warning.message) :
    .unreachableRule name g.start ∈ g.lint := by
  obtain ⟨warning, hwarning, heq⟩ := List.mem_map.mp h
  have hlast := congrArg (fun message : String => message.toList.getLast?) heq
  simp only [Warning.getLast?_message] at hlast
  cases warning with
  | unreachableRule rule start =>
    obtain ⟨rfl, -⟩ := unreachableRule_mem_lint_iff.mp hwarning
    have hrule : rule = name := by simpa [Warning.message, String.ext_iff] using heq
    exact hrule ▸ hwarning
  | suspiciousLiteral rule text => simp at hlast
  | unusedCategory category => simp at hlast

/-- Among the warnings about a grammar, no other is shown as one about an unused category. -/
theorem unusedCategory_mem_of_message_mem
    (h : (Warning.unusedCategory category).message ∈ g.lint.map Warning.message) :
    .unusedCategory category ∈ g.lint := by
  obtain ⟨warning, hwarning, heq⟩ := List.mem_map.mp h
  have hlast := congrArg (fun message : String => message.toList.getLast?) heq
  simp only [Warning.getLast?_message] at hlast
  cases warning with
  | unreachableRule rule start => simp at hlast
  | suspiciousLiteral rule text => simp at hlast
  | unusedCategory other =>
    have hkey : other.key = category.key := by simpa [Warning.message, String.ext_iff] using heq
    exact Category.key_injective hkey ▸ hwarning

/-! ### Rules and derivations -/

/-- An alternative of a rule that the start leads to is picked in some derivation from the start. -/
theorem exists_isDerivation_picks {alternatives : List Alternative} {index : Nat}
    (hled : Relation.ReflTransGen g.RefersTo g.start name)
    (hrule : g.rules[name]? = some alternatives) (hindex : index < alternatives.length) :
    ∃ d, g.IsDerivation d ∧ d.root = g.startSymbol ∧ d.Picks name index := by
  have halternative := List.getElem?_eq_getElem hindex
  obtain ⟨parts, hparts⟩ := exists_isDerivation_rule hrule halternative
  obtain ⟨d, hd, hroot, hwithin⟩ := exists_isDerivation_of_led hled hparts rfl
  exact ⟨d, hd, hroot, parts, hwithin⟩

/-- A category in a rule that the start leads to is drawn from in some derivation from the start. -/
theorem exists_isDerivation_word (hled : Relation.ReflTransGen g.RefersTo g.start name)
    (hsymbol : (name, .terminal category) ∈ g.rules.symbols) :
    ∃ d, g.IsDerivation d ∧ d.root = g.startSymbol ∧ .word category ∈ d.leaves := by
  obtain ⟨alternatives, hrule, alternative, hmem, hs⟩ := Rules.mem_symbols_iff.mp hsymbol
  obtain ⟨index, hindex⟩ := List.getElem?_of_mem hmem
  obtain ⟨parts, hin, hparts⟩ := exists_rule_of_part hrule hindex (.word category) hs
  obtain ⟨d, hd, hroot, hwithin⟩ := exists_isDerivation_of_led hled hparts rfl
  have hpart : Derivation.Within (.word category) (.rule name index parts) := .part hin (.refl _)
  have hleaf : Leaf.word category ∈ Derivation.leaves (.rule name index parts) :=
    hpart.mem_leaves (by simp [Derivation.leaves])
  exact ⟨d, hd, hroot, hwithin.mem_leaves hleaf⟩

/-- The rules that are in no derivation from the start are those that it does not lead to. -/
theorem mem_unreachable_iff_not_expands :
    name ∈ g.unreachable ↔ name ∈ g.ruleNames ∧
      ∀ d, g.IsDerivation d → d.root = g.startSymbol → ¬ d.Expands name := by
  rw [mem_unreachable_iff, ruleNames, Std.ExtTreeMap.mem_keys, ← refersTo_eq]
  refine and_congr_right fun hname => ⟨fun hnot d hd hroot hexpands => ?_, fun hnone hled => ?_⟩
  · obtain ⟨index, parts, hwithin⟩ := hexpands
    obtain ⟨top, htop, hled⟩ := led_of_within hd hwithin rfl
    obtain rfl : g.start = top := by simpa [startSymbol] using hroot.symm.trans htop
    exact hnot hled
  · have hrule := Std.ExtTreeMap.getElem?_eq_some_getElem hname
    obtain ⟨d, hd, hroot, hpicks⟩ :=
      exists_isDerivation_picks hled hrule (g.length_pos_of_getElem? hrule)
    exact hnone d hd hroot ⟨0, hpicks⟩

/-- The symbol refers to a rule, or it stands in one. -/
def IsSymbol (g : Grammar) (s : Symbol) : Prop :=
  (∃ name ∈ g.ruleNames, s = .nonterminal name) ∨ ∃ name, (name, s) ∈ g.rules.symbols

/-- The leaves of a derivation of a grammar's symbol stand in the grammar's rules. -/
theorem exists_mem_symbols_of_mem_leaves {d : Derivation} {leaf : Leaf} (hd : g.IsDerivation d)
    (hroot : g.IsSymbol d.root) (hleaf : leaf ∈ d.leaves) :
    ∃ name, (name, leaf.symbol) ∈ g.rules.symbols := by
  rcases mem_symbols_of_mem_leaves hd hleaf with heq | hsymbol
  · rcases hroot with ⟨name, -, hname⟩ | ⟨name, hname⟩
    -- a reference is no leaf
    · rw [heq] at hname
      cases leaf <;> simp [Leaf.symbol] at hname
    · exact ⟨name, heq ▸ hname⟩
  · exact hsymbol

/-! ### The meaning of the warnings -/

/-- **Warnings mean what they say.** A rule is reported as unreachable exactly if it is in no
derivation from the start symbol, and a category that is reported as unused is drawn from in no
derivation of a rule. If there are no warnings, every alternative of every rule is picked in some
derivation from the start, every category is drawn from in one, and no derivation of a symbol of the
grammar has a literal that looks like the name of a rule. -/
theorem lint_sound_complete (g : Grammar) :
    (∀ name, (Warning.unreachableRule name g.start).message ∈ g.lint.map Warning.message ↔
      name ∈ g.ruleNames ∧
        ∀ d, g.IsDerivation d → d.root = g.startSymbol → ¬ d.Expands name) ∧
    (∀ category, (Warning.unusedCategory category).message ∈ g.lint.map Warning.message →
      ∀ d, g.IsDerivation d → g.IsSymbol d.root → .word category ∉ d.leaves) ∧
    (g.lint = [] →
      (∀ name alternatives, g.rule? name = some alternatives →
        ∀ index < alternatives.length,
          ∃ d, g.IsDerivation d ∧ d.root = g.startSymbol ∧ d.Picks name index) ∧
      (∀ category, ∃ d, g.IsDerivation d ∧ d.root = g.startSymbol ∧ .word category ∈ d.leaves) ∧
      ∀ d, g.IsDerivation d → g.IsSymbol d.root →
        ∀ text, .literal text ∈ d.leaves → ¬ HasNameShape text) := by
  refine ⟨fun name => ?_, fun category hmessage d hd hroot hleaf => ?_, fun hnone => ?_⟩
  · rw [← mem_unreachable_iff_not_expands]
    constructor
    · intro hmessage
      exact (unreachableRule_mem_lint_iff.mp (unreachableRule_mem_of_message_mem hmessage)).2
    · intro hname
      exact List.mem_map_of_mem (unreachableRule_mem_lint_iff.mpr ⟨rfl, hname⟩)
  · have hunused := unusedCategory_mem_lint_iff.mp (unusedCategory_mem_of_message_mem hmessage)
    exact hunused (mem_categories_iff.mpr (exists_mem_symbols_of_mem_leaves hd hroot hleaf))
  · -- without warnings, the start leads to all rules
    have hled : ∀ name alternatives, g.rules[name]? = some alternatives →
        Relation.ReflTransGen g.RefersTo g.start name := by
      intro name alternatives hrule
      by_contra hnot
      rw [refersTo_eq] at hnot
      have hname : name ∈ g.rules := Std.ExtTreeMap.mem_iff_isSome_getElem?.mpr (by simp [hrule])
      have hwarning : .unreachableRule name g.start ∈ g.lint :=
        unreachableRule_mem_lint_iff.mpr ⟨rfl, mem_unreachable_iff.mpr ⟨hname, hnot⟩⟩
      simp [hnone] at hwarning
    refine ⟨fun name alternatives hrule index hindex => ?_, fun category => ?_,
      fun d hd hroot text hleaf hshape => ?_⟩
    · exact exists_isDerivation_picks (hled name alternatives hrule) hrule hindex
    · have hused : category ∈ g.categories := by
        by_contra hnot
        have hwarning : .unusedCategory category ∈ g.lint := unusedCategory_mem_lint_iff.mpr hnot
        simp [hnone] at hwarning
      obtain ⟨name, hsymbol⟩ := mem_categories_iff.mp hused
      obtain ⟨alternatives, hrule, -⟩ := Rules.mem_symbols_iff.mp hsymbol
      exact exists_isDerivation_word (hled name alternatives hrule) hsymbol
    · obtain ⟨name, hsymbol⟩ := exists_mem_symbols_of_mem_leaves hd hroot hleaf
      have hliteral : (name, text) ∈ g.suspiciousLiterals :=
        mem_suspiciousLiterals_iff.mpr ⟨hsymbol, looksLikeRuleName_iff.mpr hshape⟩
      have hwarning := suspiciousLiteral_mem_lint_iff.mpr hliteral
      simp [hnone] at hwarning

/-- There is nothing to warn about in the built-in grammar. -/
example : english.lint = [] := by
  decide +kernel

end Grammar

end RandomSentences
