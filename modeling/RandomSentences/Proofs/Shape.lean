import RandomSentences.Proofs.Additions
import RandomSentences.Proofs.Naming
import RandomSentences.Proofs.Template
import RandomSentences.Proofs.Uppercase

/-!
# The shape of a sentence

A *phrase* is a text on one line that is not empty and has no blank at its start or its end. Words
of a word list are phrases, though they may hold blanks, and so are the tokens of a grammar; and
phrases that are joined by single spaces make a phrase again. So over words that were loaded from a
directory every expansion is a phrase, whatever the grammar and the choices. Finishing it puts its
first character in upper case and adds a period, and the sentence ends in this one only, unless a
word or a literal ends in a period. `Grammar.generateSeeded_of_load` says all this of the whole way
from the files of a directory to a sentence.
-/

namespace RandomSentences

/-! ### Phrases -/

namespace Text

/-- The text is not empty, stands on one line, and neither starts nor ends with a blank. -/
structure IsPhrase (text : String) : Prop where
  ne_nil : text.toList ≠ []
  head : ∀ c ∈ text.toList.head?, isBlank c = false
  last : ∀ c ∈ text.toList.getLast?, isBlank c = false
  line : '\n' ∉ text.toList

theorem IsWord.isPhrase {text : String} (h : IsWord text) : IsPhrase text where
  ne_nil := h.1
  head c hc := h.2 c (List.mem_of_head? hc)
  last c hc := h.2 c (List.mem_of_getLast? hc)
  line hmem := absurd (h.2 _ hmem) (by decide)

variable {texts : List String}

/-- Texts that are joined start with the start of one of them and end with the end of one. -/
theorem ends_intercalate (hne : texts ≠ []) (h : ∀ text ∈ texts, text.toList ≠ []) :
    (∃ text ∈ texts, (" ".intercalate texts).toList.head? = text.toList.head?) ∧
      ∃ text ∈ texts, (" ".intercalate texts).toList.getLast? = text.toList.getLast? := by
  induction texts with
  | nil => exact absurd rfl hne
  | cons text texts ih =>
    cases texts with
    | nil => exact ⟨⟨text, List.mem_cons_self .., rfl⟩, text, List.mem_cons_self .., rfl⟩
    | cons next texts =>
      -- the start is that of the first text now, and the end is still the end of the others
      obtain ⟨-, last, hlast, heq⟩ := ih (by simp) fun other hother =>
        h other (List.mem_cons_of_mem _ hother)
      obtain ⟨c, cs, htext⟩ := List.exists_cons_of_ne_nil (h text (List.mem_cons_self ..))
      have hend := List.getLast?_eq_some_getLast (h last (List.mem_cons_of_mem _ hlast))
      rw [String.intercalate_cons_cons, String.toList_append, String.toList_append]
      refine ⟨⟨text, List.mem_cons_self .., ?_⟩, last, List.mem_cons_of_mem _ hlast, ?_⟩
      · rw [htext, List.append_assoc, List.cons_append, List.head?_cons, List.head?_cons]
      · rw [List.getLast?_append, heq, hend, Option.some_or]

/-- What is neither in a separator nor in any of the texts is not in the texts joined by it. -/
theorem not_mem_intercalate {c : Char} {separator : String} (hc : c ∉ separator.toList)
    (h : ∀ text ∈ texts, c ∉ text.toList) : c ∉ (separator.intercalate texts).toList := by
  induction texts with
  | nil => simp
  | cons text texts ih =>
    have htext := h text (List.mem_cons_self ..)
    have ih := ih fun other hother => h other (List.mem_cons_of_mem _ hother)
    cases texts with
    | nil => simpa using htext
    | cons next texts =>
      rw [String.intercalate_cons_cons, String.toList_append, String.toList_append]
      simp only [List.mem_append, not_or]
      exact ⟨⟨htext, hc⟩, ih⟩

/-- Phrases that are joined by single spaces make a phrase. -/
theorem isPhrase_intercalate (hne : texts ≠ []) (h : ∀ text ∈ texts, IsPhrase text) :
    IsPhrase (" ".intercalate texts) := by
  obtain ⟨⟨first, hfirst, hhead⟩, last, hlast, hgetLast⟩ :=
    ends_intercalate hne fun text htext => (h text htext).ne_nil
  constructor
  · rw [← List.isSome_head?, hhead, List.isSome_head?]
    exact (h first hfirst).ne_nil
  · rw [hhead]
    exact (h first hfirst).head
  · rw [hgetLast]
    exact (h last hlast).last
  · exact not_mem_intercalate (by decide) fun text htext => (h text htext).line

end Text

/-! ### Words of a word list -/

/-- The words of a word list are phrases. -/
theorem WordList.isPhrase_of_mem_parse {text word : String} (h : word ∈ WordList.parse text) :
    Text.IsPhrase word := by
  rw [parse_eq_pieces] at h
  obtain ⟨piece, hpiece, hword⟩ := List.mem_filterMap.mp h
  obtain ⟨hne, rfl⟩ : Text.trim piece ≠ [] ∧ String.ofList (Text.trim piece) = word := by
    simpa [word?] using hword
  have hline : '\n' ∉ piece := by
    intro hmem
    simpa using Text.eq_false_of_mem_pieces hpiece _ hmem
  constructor
  · simpa using hne
  · exact fun c hc => Text.not_isBlank_of_head?_trim (by simpa using hc)
  · exact fun c hc => Text.not_isBlank_of_getLast?_trim (by simpa using hc)
  · exact fun hmem => hline (Text.mem_of_mem_trim (by simpa using hmem))

theorem WordList.exists_text_of_words {file : WordList.File} {words : List String}
    (h : file.words = .ok words) : ∃ text, words = WordList.parse text := by
  unfold WordList.File.words at h
  cases htext : file.node.text with
  | error cause => simp [htext, Except.map] at h
  | ok text => exact ⟨text, by simpa [htext, Except.map, eq_comm] using h⟩

/-- What the word lists of a directory add are words of word lists. -/
theorem Snapshot.exists_mem_parse_of_mem_additions {files : Snapshot} {directory : FilePath}
    {key word : String} (h : (key, word) ∈ files.additions directory) :
    ∃ text, word ∈ WordList.parse text := by
  unfold Snapshot.additions at h
  split at h
  · rename_i lists hlists
    obtain ⟨file, -, hfile⟩ := List.mem_flatMap.mp h
    unfold WordList.File.additions at hfile
    split at hfile
    · rename_i words hwords
      obtain ⟨text, rfl⟩ := WordList.exists_text_of_words hwords
      exact ⟨text, (mem_additionsTo_iff.mp hfile).2⟩
    · simp at hfile
  · simp at h

/-- A store that was loaded from a directory holds phrases only. -/
theorem MemoryStore.isPhrase_of_load {files : Snapshot} {directory : FilePath}
    {source : NumberStream} {store : MemoryStore} {key word : String}
    (hload : load files directory source = .ok store) (h : word ∈ store.members key) :
    Text.IsPhrase word := by
  obtain ⟨text, hword⟩ :=
    Snapshot.exists_mem_parse_of_mem_additions ((mem_members_of_load hload).mp h)
  exact WordList.isPhrase_of_mem_parse hword

/-! ### Expansions -/

theorem Category.isWord_placeholder (c : Category) : Text.IsWord c.placeholder := by
  have hne : c.placeholder.toList ≠ [] := by cases c <;> decide
  have hblank : c.placeholder.toList.all (!Text.isBlank ·) = true := by cases c <;> decide
  exact ⟨hne, fun d hd => by simpa using List.all_eq_true.mp hblank d hd⟩

/-- The words that are drawn from a store in memory are members of its sets. -/
theorem MemoryStore.mem_members_of_answers {store after : MemoryStore} {keys : List String}
    {words : List (Option String)} (h : Answers store keys words after) {word : String}
    (hword : some word ∈ words) : ∃ key, word ∈ store.members key := by
  induction h with
  | nil => simp at hword
  | @cons store between after key keys answer words hdraw hwords ih =>
    obtain ⟨hsets, -, hsome⟩ := draw_of_members store key
    have hanswer : (.ok (store.draw key).1 : Except StoreError _) = .ok answer :=
      congrArg Prod.fst hdraw
    have hbetween : (store.draw key).2 = between := congrArg Prod.snd hdraw
    rcases List.mem_cons.mp hword with rfl | hrest
    · exact ⟨key, hsome word (Except.ok.inj hanswer)⟩
    · obtain ⟨other, hother⟩ := ih hrest
      rw [members, ← hbetween, hsets] at hother
      exact ⟨other, hother⟩

namespace Leaf

/-- The text of a leaf is a literal, a placeholder, or a word that was drawn. -/
theorem mem_texts {leaves : List Leaf} {answers : List (Option String)} {text : String}
    (h : text ∈ texts leaves answers) :
    literal text ∈ leaves ∨ (∃ category : Category, text = category.placeholder) ∨
      some text ∈ answers := by
  induction leaves generalizing answers with
  | nil => simp [texts] at h
  | cons leaf leaves ih =>
    cases leaf with
    | literal other =>
      rcases List.mem_cons.mp h with rfl | h
      · exact .inl (List.mem_cons_self ..)
      · exact (ih h).imp_left (List.mem_cons_of_mem _)
    | word category =>
      cases answers with
      | nil =>
        rcases List.mem_cons.mp h with rfl | h
        · exact .inr (.inl ⟨category, rfl⟩)
        · exact (ih h).imp_left (List.mem_cons_of_mem _)
      | cons answer answers =>
        rcases List.mem_cons.mp h with rfl | h
        · cases answer with
          | none => exact .inr (.inl ⟨category, rfl⟩)
          | some word => exact .inr (.inr (List.mem_cons_self ..))
        · exact (ih h).imp (List.mem_cons_of_mem _) (.imp_right (List.mem_cons_of_mem _))

theorem texts_ne_nil {leaves : List Leaf} (h : leaves ≠ []) (answers : List (Option String)) :
    texts leaves answers ≠ [] := by
  obtain ⟨leaf, leaves, rfl⟩ := List.exists_cons_of_ne_nil h
  cases leaf <;> cases answers <;> simp [texts]

end Leaf

namespace Grammar

variable {g : Grammar}

/-- The literals of a grammar are words between blanks. -/
theorem isWord_of_mem_symbols {name text : String} (h : (name, .literal text) ∈ g.rules.symbols) :
    Text.IsWord text := by
  obtain ⟨alternatives, hrule, alternative, ha, hs⟩ := Rules.mem_symbols_iff.mp h
  exact (g.wellFormed.ofToken_text name alternatives hrule alternative ha _ hs).2.2

end Grammar

/-! ### Sentences -/

section Finishing

variable {raw : String} {c : Char} {rest : List Char}

theorem toList_finishSentence (h : raw.toList = c :: rest) :
    (finishSentence raw).toList = Text.uppercase c ++ rest ++ ['.'] := by
  rw [finishSentence, h, String.toList_ofList]

/-- A sentence stands on one line if the text that is finished does. -/
theorem newline_not_mem_finishSentence (h : raw.toList = c :: rest) (hline : '\n' ∉ raw.toList) :
    '\n' ∉ (finishSentence raw).toList := by
  rw [toList_finishSentence h]
  rw [h] at hline
  simp only [List.mem_append, List.mem_singleton, not_or]
  refine ⟨⟨fun hupper => ?_, fun hrest => hline (List.mem_cons_of_mem _ hrest)⟩, by decide⟩
  rcases Text.mem_uppercase hupper with hc | ⟨hblank, -⟩
  · exact hline (hc ▸ List.mem_cons_self ..)
  · exact absurd hblank (by decide)

/-- Before the period that is added there is no other, unless the text ends in one. -/
theorem getLast?_uppercase_append (h : raw.toList = c :: rest)
    (hlast : raw.toList.getLast? ≠ some '.') :
    (Text.uppercase c ++ rest).getLast? ≠ some '.' := by
  rw [h] at hlast
  cases rest with
  | nil =>
    -- nothing follows the first character, so its uppercase ends the sentence
    intro hperiod
    rw [List.append_nil] at hperiod
    rcases Text.mem_uppercase (List.mem_of_getLast? hperiod) with hc | ⟨-, hne⟩
    · exact hlast (hc ▸ rfl)
    · exact hne rfl
  | cons d rest =>
    rwa [List.getLast?_append_of_ne_nil _ (List.cons_ne_nil d rest), ← List.getLast?_cons_cons]

end Finishing

namespace Grammar

variable {g : Grammar} {files : Snapshot} {directory : FilePath} {source : NumberStream}
  {store : MemoryStore}

/-- What is told of the start symbol over a store is made of literals of the grammar, placeholders
and members of the store. -/
theorem exists_texts_of_startSymbol (g : Grammar) (choices : NumberStream) (store : MemoryStore) :
    ∃ texts after, texts ≠ [] ∧
      g.expandSymbol g.startSymbol choices store = (.ok (" ".intercalate texts), after) ∧
      ∀ text ∈ texts, (∃ name, (name, .literal text) ∈ g.rules.symbols) ∨
        (∃ category : Category, text = category.placeholder) ∨
        ∃ key, text ∈ store.members key := by
  have hcovers : g.Covers g.startSymbol := Resolves.covers (.inl rfl)
  have hd := isDerivation_derive hcovers choices
  obtain ⟨words, after, hwords⟩ :=
    store.neverFails (g.derive g.startSymbol choices).keys
  refine ⟨Leaf.texts (g.derive g.startSymbol choices).leaves words, after,
    Leaf.texts_ne_nil (tell_eq_map_mapM (σ := MemoryStore) hd).1 words,
    tell_of_answers hd hwords, fun text htext => ?_⟩
  rcases Leaf.mem_texts htext with hleaf | hplaceholder | hword
  · rcases mem_symbols_of_mem_leaves hd hleaf with hroot | hliteral
    -- the root is the start symbol, which is no literal
    · rw [root_derive hcovers] at hroot
      exact absurd hroot (by simp [startSymbol, Leaf.symbol])
    · exact .inl hliteral
  · exact .inr (.inl hplaceholder)
  · exact .inr (.inr (MemoryStore.mem_members_of_answers hwords hword))

/-- **The shape of a sentence.** Over a store that was loaded from a directory, every grammar and
every seed make a sentence. It is a phrase, the expansion of the start symbol, with its first
character in upper case and a period added, and it stands on one line. If neither a word of the
store nor a literal of the grammar ends in a period, there is no other before the last. -/
theorem generateSeeded_of_load (g : Grammar) (seed : UInt64)
    (hload : MemoryStore.load files directory source = .ok store) :
    ∃ raw after,
      g.expandSymbol g.startSymbol (NumberStream.ofSeed seed) store = (.ok raw, after) ∧
      g.generateSeeded seed store = (.ok (finishSentence raw), after) ∧
      Text.IsPhrase raw ∧ '\n' ∉ (finishSentence raw).toList ∧
      ∃ first rest, raw.toList = first :: rest ∧
        (finishSentence raw).toList = Text.uppercase first ++ rest ++ ['.'] ∧
        ((∀ key, ∀ word ∈ store.members key, word.toList.getLast? ≠ some '.') →
          (∀ name text, (name, .literal text) ∈ g.rules.symbols →
            text.toList.getLast? ≠ some '.') →
          (Text.uppercase first ++ rest).getLast? ≠ some '.') := by
  obtain ⟨texts, after, hne, hraw, htexts⟩ :=
    exists_texts_of_startSymbol g (NumberStream.ofSeed seed) store
  have hphrases : ∀ text ∈ texts, Text.IsPhrase text := by
    intro text htext
    rcases htexts text htext with ⟨name, hliteral⟩ | ⟨category, rfl⟩ | ⟨key, hword⟩
    · exact (isWord_of_mem_symbols hliteral).isPhrase
    · exact category.isWord_placeholder.isPhrase
    · exact MemoryStore.isPhrase_of_load hload hword
  have hphrase := Text.isPhrase_intercalate hne hphrases
  obtain ⟨first, rest, hfirst⟩ := List.exists_cons_of_ne_nil hphrase.ne_nil
  refine ⟨_, after, hraw, ?_, hphrase, newline_not_mem_finishSentence hfirst hphrase.line, first,
    rest, hfirst, toList_finishSentence hfirst, fun hwords hliterals => ?_⟩
  · rw [generateSeeded, generate_eq_map_expandSymbol, hraw]
    rfl
  · refine getLast?_uppercase_append hfirst ?_
    obtain ⟨-, text, htext, hlast⟩ :=
      Text.ends_intercalate hne fun text htext => (hphrases text htext).ne_nil
    rw [hlast]
    rcases htexts text htext with ⟨name, hliteral⟩ | ⟨category, rfl⟩ | ⟨key, hword⟩
    · exact hliterals name text hliteral
    -- a placeholder ends in a brace
    · cases category <;> decide
    · exact hwords key text hword

/-- At the ball, over the words of the coop, neither of which ends in a period. -/
theorem generateSeeded_of_load_ball :
    ∃ store, MemoryStore.load MemoryStore.History.farm (Utf8.encode "coop")
        (NumberStream.ofSeed 5) = .ok store ∧
      (∀ key, ∀ word ∈ store.members key, word.toList.getLast? ≠ some '.') ∧
      (∀ name text, (name, .literal text) ∈ ball.rules.symbols →
        text.toList.getLast? ≠ some '.') ∧
      ∃ raw after, ball.generateSeeded 7 store = (.ok (finishSentence raw), after) ∧
        Text.IsPhrase raw ∧ '\n' ∉ (finishSentence raw).toList ∧
        ∃ first rest, (finishSentence raw).toList = Text.uppercase first ++ rest ++ ['.'] ∧
          (Text.uppercase first ++ rest).getLast? ≠ some '.' := by
  have hsymbols : ball.rules.symbols =
      [("Ball", .nonterminal "Guest"), ("Ball", .terminal .nouns), ("Guest", .literal "fox"),
        (Category.nouns.placeholder, .literal "mask")] := by decide +kernel
  obtain ⟨store, hload⟩ := MemoryStore.History.exists_load_farm_coop (NumberStream.ofSeed 5)
  have hwords : ∀ key, ∀ word ∈ store.members key, word.toList.getLast? ≠ some '.' := by
    intro key word hword
    rw [MemoryStore.mem_members_of_load hload, MemoryStore.History.additions_farm_coop,
      mem_additionsTo_iff] at hword
    have hall : ∀ word ∈ ["hen", "hen", "fox"], word.toList.getLast? ≠ some '.' := by decide
    exact hall word hword.2
  have hliterals : ∀ name text, (name, .literal text) ∈ ball.rules.symbols →
      text.toList.getLast? ≠ some '.' := by
    intro name text htext
    rw [hsymbols] at htext
    obtain ⟨-, rfl⟩ | ⟨-, rfl⟩ : (name = "Guest" ∧ text = "fox") ∨
        (name = Category.nouns.placeholder ∧ text = "mask") := by simpa using htext
    · decide
    · decide
  obtain ⟨raw, after, -, hsentence, hphrase, hline, first, rest, -, hfirst, hperiod⟩ :=
    generateSeeded_of_load ball 7 hload
  exact ⟨store, hload, hwords, hliterals, raw, after, hsentence, hphrase, hline, first, rest,
    hfirst, hperiod hwords hliterals⟩

end Grammar

end RandomSentences
