import RandomSentences.Grammar.File
import RandomSentences.Proofs.RonText

/-!
# The texts of a grammar file

A grammar can be made of a start symbol and rules, or of the text of a file that gives them. Such a
file is a record with the rules and, if it is given, the start symbol (`GrammarText.IsFile`): the
name `Grammar` may stand in front of it, blanks may stand between any two tokens, and every list may
end with a comma. Names, alternatives and the start symbol are any texts at all, quoted as
`Ron.quote` writes them, and a name may have several rules.

The rules that are read from such a text are those that it gives, in their order, so that both ways
come to the same grammar or the same error (`Grammar.parse_eq_ofRules`).
-/

namespace RandomSentences

namespace GrammarText

open Ron (IsGap Listing Reads ReadsEntry ReadsField isGap_nil)

/-! ### Texts of grammar files -/

/-- The text of an alternative, in quotes. -/
inductive AlternativeText : String → List Char → Prop
  | quote (alternative : String) : AlternativeText alternative (Ron.quote alternative)

/-- The texts of some alternatives. -/
inductive AlternativesText : List String → List Char → Prop
  | list {alternatives : List String} {cs : List Char} : Listing AlternativeText alternatives cs →
      AlternativesText alternatives ('[' :: (cs ++ [']']))

/-- The texts of a rule, a name and its alternatives. -/
inductive RuleText : String × List String → List Char → Prop
  | entry {name : String} {alternatives : List String} {before after cs : List Char} :
      IsGap before → IsGap after → AlternativesText alternatives cs →
      RuleText (name, alternatives) (Ron.quote name ++ (before ++ ':' :: (after ++ cs)))

/-- A field of a grammar file. -/
inductive Field where
  | start (start : String)
  | rules (rules : List (String × List String))

/-- The texts of a field. -/
inductive FieldText : Field → List Char → Prop
  | start {start : String} {before after : List Char} : IsGap before → IsGap after →
      FieldText (.start start)
        ("start".toList ++ (before ++ ':' :: (after ++ Ron.quote start)))
  | rules {rules : List (String × List String)} {before after cs : List Char} : IsGap before →
      IsGap after → Listing RuleText rules cs →
      FieldText (.rules rules)
        ("rules".toList ++ (before ++ ':' :: (after ++ '\x7b' :: (cs ++ ['\x7d']))))

/-- The fields of a grammar file, where the start symbol may be left out. -/
def fieldsOf (start : Option String) (rules : List (String × List String)) : List Field :=
  match start with
  | some start => [.start start, .rules rules]
  | none => [.rules rules]

/-- The texts of the record of a grammar file, with its name or without it. -/
inductive RecordText (start : Option String) (rules : List (String × List String)) :
    List Char → Prop
  | bare {cs : List Char} : Listing FieldText (fieldsOf start rules) cs →
      RecordText start rules ('(' :: (cs ++ [')']))
  | named {gap cs : List Char} : IsGap gap → Listing FieldText (fieldsOf start rules) cs →
      RecordText start rules ("Grammar".toList ++ (gap ++ '(' :: (cs ++ [')'])))

/-- The texts of a grammar file. -/
inductive IsFile (start : Option String) (rules : List (String × List String)) (text : String) :
    Prop
  | padded {before cs after : List Char} : IsGap before → RecordText start rules cs →
      IsGap after → text.toList = before ++ (cs ++ after) → IsFile start rules text

/-! ### Reading them -/

variable {start : Option String} {rules : List (String × List String)} {cs : List Char}

/-- A rule as an entry of a map. -/
def entryOf (rule : String × List String) : Ron × Ron :=
  (.string rule.1, .list (rule.2.map .string))

/-- A field as a field of a record. -/
def Field.toRon : Field → String × Ron
  | .start start => ("start", .string start)
  | .rules rules => ("rules", .map (rules.map entryOf))

theorem reads_of_alternativesText {alternatives : List String}
    (h : AlternativesText alternatives cs) : Reads (.list (alternatives.map .string)) 2 cs := by
  obtain ⟨hlisting⟩ := h
  refine Ron.reads_list (hlisting.map ?_)
  rintro alternative _ ⟨⟩
  exact Ron.reads_quote alternative

theorem readsEntry_of_ruleText {rule : String × List String} (h : RuleText rule cs) :
    ReadsEntry 2 (entryOf rule) cs := by
  obtain ⟨hbefore, hafter, halternatives⟩ := h
  rename_i name _ _ _ _
  exact .pair ((Ron.reads_quote name).mono (Nat.zero_le 2))
    (.colon hbefore hafter (reads_of_alternativesText halternatives))

theorem isName_start : Ron.IsName "start" where
  parts := List.all_eq_true.mp (by decide)
  exists_cons := ⟨'s', _, rfl, by decide⟩
  ne_raw := by decide

theorem isName_rules : Ron.IsName "rules" where
  parts := List.all_eq_true.mp (by decide)
  exists_cons := ⟨'r', _, rfl, by decide⟩
  ne_raw := by decide

theorem isName_grammar : Ron.IsName "Grammar" where
  parts := List.all_eq_true.mp (by decide)
  exists_cons := ⟨'G', _, rfl, by decide⟩
  ne_raw := by decide

theorem readsField_of_fieldText {field : Field} (h : FieldText field cs) :
    ReadsField 4 field.toRon cs := by
  cases h with
  | start hbefore hafter =>
    rename_i start _ _
    exact .pair isName_start
      (.colon hbefore hafter ((Ron.reads_quote start).mono (Nat.zero_le 4)))
  | rules hbefore hafter hlisting =>
    have hmap := Ron.reads_map (hlisting.map (f := entryOf) fun _ _ => readsEntry_of_ruleText)
    exact .pair isName_rules (.colon hbefore hafter hmap)

theorem exists_toRon_fieldsOf (start : Option String) (rules : List (String × List String)) :
    ∃ field fields, (fieldsOf start rules).map Field.toRon = field :: fields := by
  cases start with
  | some start => exact ⟨_, _, rfl⟩
  | none => exact ⟨_, _, rfl⟩

/-- A record text is read as the record of its fields. -/
theorem exists_reads_of_recordText (h : RecordText start rules cs) :
    ∃ name, (name = none ∨ name = some "Grammar") ∧ cs.head? ≠ some '#' ∧
      Reads (.record name ((fieldsOf start rules).map Field.toRon)) 6 cs := by
  obtain ⟨field, fields, heq⟩ := exists_toRon_fieldsOf start rules
  cases h with
  | bare hlisting =>
    have hfields := hlisting.map (f := Field.toRon) fun _ _ => readsField_of_fieldText
    rw [heq] at hfields ⊢
    exact ⟨none, .inl rfl, by simp, Ron.reads_record hfields⟩
  | named hgap hlisting =>
    have hfields := hlisting.map (f := Field.toRon) fun _ _ => readsField_of_fieldText
    rw [heq] at hfields ⊢
    exact ⟨some "Grammar", .inr rfl, by simp,
      Ron.reads_record_named isName_grammar (fun _ => ⟨rfl, rfl⟩) hgap hfields⟩

theorem ruleOfEntry?_entryOf (rule : String × List String) :
    ruleOfEntry? (entryOf rule) = some rule := by
  have htexts : (rule.2.map Ron.string).mapM Ron.text? = some rule.2 := by
    rw [List.mapM_map]
    exact (List.mapM_pure (f := id)).trans (congrArg some (List.map_id _))
  simp only [entryOf, ruleOfEntry?, Ron.text?, Ron.items?, Option.bind_eq_bind, Option.bind_some,
    htexts]
  rfl

/-- The entries of a map give the rules that they were made of. -/
theorem rulesOf?_map_entryOf (rules : List (String × List String)) :
    rulesOf? (.map (rules.map entryOf)) = some rules := by
  have hentry : ruleOfEntry? ∘ entryOf = fun rule => pure (id rule) := funext ruleOfEntry?_entryOf
  have hrules : (rules.map entryOf).mapM ruleOfEntry? = some rules := by
    rw [List.mapM_map, hentry]
    exact List.mapM_pure.trans (congrArg some (List.map_id _))
  exact hrules

theorem ofRon_fieldsOf {name : Option String} (hname : name = none ∨ name = some "Grammar") :
    ofRon (.record name ((fieldsOf start rules).map Field.toRon)) =
      .ok ⟨start.getD Grammar.defaultStart, rules⟩ := by
  have hrules : valuesOf "rules" ((fieldsOf start rules).map Field.toRon) =
      [.map (rules.map entryOf)] := by
    cases start <;> rfl
  have hstart : startOf ((fieldsOf start rules).map Field.toRon) =
      .ok (start.getD Grammar.defaultStart) := by
    cases start <;> rfl
  rw [ofRon, if_pos hname, hrules, hstart]
  simp only [rulesOf?_map_entryOf]

/-- The start symbol and the rules are read from any text that gives them. -/
theorem read_of_isFile {text : String} (h : IsFile start rules text) :
    read text = .ok ⟨start.getD Grammar.defaultStart, rules⟩ := by
  obtain ⟨hbefore, hrecord, hafter, htext⟩ := h
  obtain ⟨name, hname, hattribute, hreads⟩ := exists_reads_of_recordText hrecord
  rw [read, Ron.read_of_reads hreads (by decide) hattribute hbefore hafter htext]
  exact ofRon_fieldsOf hname

/-! ### Writing them -/

theorem isGap_space : IsGap [' '] := by
  simp [IsGap, Ron.IsBlank]

theorem listing_separate {α : Type} {IsText : α → List Char → Prop} {f : α → List Char}
    (h : ∀ item, IsText item (f item)) (items : List α) :
    Listing IsText items (separate (items.map f)) := by
  induction items with
  | nil => exact .nil isGap_nil
  | cons item items ih =>
    cases items with
    | nil => simpa [separate] using Listing.last isGap_nil (h item) isGap_nil
    | cons next items =>
      simpa [separate] using
        Listing.cons isGap_nil (h item) isGap_nil (ih.gap_append isGap_space)

theorem ruleText_writeRule (rule : String × List String) : RuleText rule (writeRule rule) := by
  obtain ⟨name, alternatives⟩ := rule
  have htext : RuleText (name, alternatives) _ := .entry isGap_nil isGap_space
    (.list (listing_separate .quote alternatives))
  simpa [writeRule] using htext

/-- The text that is written of a start symbol and rules is one that gives them. -/
theorem isFile_write (start : Option String) (rules : List (String × List String)) :
    IsFile start rules (write start rules) := by
  have hname : "rules: ".toList = "rules".toList ++ [':', ' '] := by simp
  have hrules := FieldText.rules isGap_nil isGap_space
    (listing_separate ruleText_writeRule rules)
  have hlast := Listing.last isGap_nil hrules isGap_nil
  cases start with
  | some start =>
    have hstartName : "start: ".toList = "start".toList ++ [':', ' '] := by simp
    have hstart := @FieldText.start start _ _ isGap_nil isGap_space
    have hlisting := Listing.cons isGap_nil hstart isGap_nil (hlast.gap_append isGap_space)
    have hrecord : RecordText (some start) rules _ := .bare hlisting
    refine .padded isGap_nil hrecord isGap_nil ?_
    unfold write
    rw [String.toList_ofList, hname]
    simp only [hstartName, List.nil_append, List.append_nil, List.append_assoc, List.cons_append]
  | none =>
    have hrecord : RecordText none rules _ := .bare hlast
    refine .padded isGap_nil hrecord isGap_nil ?_
    unfold write
    rw [String.toList_ofList, hname]
    simp only [List.nil_append, List.append_nil, List.append_assoc, List.cons_append]

end GrammarText

/-- A grammar of a file's text is the one that is made of what the text gives, or fails with the
same error, and the start symbol is `S` where none is given. What is written is such a text. -/
theorem Grammar.parse_eq_ofRules :
    (∀ (start : Option String) (rules : List (String × List String)) (text : String),
      GrammarText.IsFile start rules text →
        Grammar.parse text = Grammar.ofRules (start.getD "S") rules) ∧
    (∀ (start : Option String) (rules : List (String × List String)),
      GrammarText.IsFile start rules (GrammarText.write start rules)) := by
  refine ⟨fun start rules text h => ?_, GrammarText.isFile_write⟩
  rw [parse, GrammarText.read_of_isFile h]
  rfl

theorem Grammar.parse_eq_ofRules_slashes :
    Grammar.parse
      "Grammar(rules: \x7b\x22S\x22: [\x22//\x5c\x22\x5c\x5c\x22,], \x22S\x22: [\x22/*\n\x22]\x7d,)"
      = Grammar.ofRules "S" [("S", ["//\x22\x5c"]), ("S", ["/*\n"])] := by
  have hfirst : GrammarText.RuleText ("S", ["//\x22\x5c"]) _ :=
    .entry Ron.isGap_nil GrammarText.isGap_space (.list (.cons Ron.isGap_nil (.quote "//\x22\x5c")
      Ron.isGap_nil (.nil Ron.isGap_nil)))
  have hsecond : GrammarText.RuleText ("S", ["/*\n"]) _ :=
    .entry Ron.isGap_nil GrammarText.isGap_space (.list (.last Ron.isGap_nil (.quote "/*\n")
      Ron.isGap_nil))
  have hrules := GrammarText.FieldText.rules Ron.isGap_nil GrammarText.isGap_space
    (.cons Ron.isGap_nil hfirst Ron.isGap_nil (.last GrammarText.isGap_space hsecond Ron.isGap_nil))
  have hrecord : GrammarText.RecordText none [("S", ["//\x22\x5c"]), ("S", ["/*\n"])] _ :=
    .named Ron.isGap_nil (.cons Ron.isGap_nil hrules Ron.isGap_nil (.nil Ron.isGap_nil))
  exact Grammar.parse_eq_ofRules.1 none _ _
    (.padded Ron.isGap_nil hrecord Ron.isGap_nil (by decide +kernel))

end RandomSentences
