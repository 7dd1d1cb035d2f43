import RandomSentences.Proofs.Derivation
import RandomSentences.Grammar.English
import RandomSentences.Sentence.Expansion
import RandomSentences.Store.Memory

/-!
# What is told of a derivation

Telling a derivation goes through its rules and joins the texts of their parts at each of them.
All that comes of it can be read off the leaves: the words of the leaves are drawn from left to
right, and the text is that of the leaves with single spaces between them
(`tell_eq_map_mapM`). That joining in stages is joining at once rests on every alternative having
a symbol, since an empty alternative would leave two spaces in a row.

`Answers` describes the answers of a store that fails no draw, and `exists_derivation_told` says
what an expansion makes of them: a derivation of the grammar, fixed by the source of choices
alone, decides which draws are made, in which order, and where each answer goes. The first draw
that fails ends the expansion, and no draw after it is made.
-/

namespace RandomSentences

variable {σ : Type} [WordStore σ]

/-! ### Leaves -/

namespace Leaf

/-- Tells a leaf. -/
def tell : Leaf → Asking σ String
  | word category => drawWord category
  | literal text => pure text

/-- The key that the word of a leaf is drawn from. -/
def key? : Leaf → Option String
  | word category => some category.key
  | literal _ => none

/-- The texts of some leaves, given the answers to the draws of their words. Where no word was
found, the placeholder of the category stands. -/
def texts : List Leaf → List (Option String) → List String
  | [], _ => []
  | literal text :: leaves, answers => text :: texts leaves answers
  | word category :: leaves, answer :: answers =>
    answer.getD category.placeholder :: texts leaves answers
  | word category :: leaves, [] => category.placeholder :: texts leaves []

end Leaf

namespace Derivation

/-- The keys that the words of a derivation are drawn from, from left to right. -/
def keys (d : Derivation) : List String :=
  d.leaves.filterMap Leaf.key?

/-- The text of a derivation, given the answers to the draws of its words. -/
def text (d : Derivation) (answers : List (Option String)) : String :=
  " ".intercalate (Leaf.texts d.leaves answers)

end Derivation

/-- Draws a word from each of some keys. -/
def drawAll (keys : List String) : Asking σ (List (Option String)) :=
  keys.mapM WordStore.randomMember

theorem drawWord_eq_map (category : Category) :
    (drawWord category : Asking σ String) =
      (fun answer => answer.getD category.placeholder) <$>
        WordStore.randomMember category.key := by
  rw [drawWord, map_eq_pure_bind]
  congr 1
  funext answer
  cases answer <;> rfl

/-- The leaves are told by drawing all of their words first. -/
theorem mapM_leaf_tell (leaves : List Leaf) :
    leaves.mapM (Leaf.tell (σ := σ)) =
      Leaf.texts leaves <$> drawAll (leaves.filterMap Leaf.key?) := by
  induction leaves with
  | nil => rfl
  | cons leaf leaves ih =>
    rw [List.mapM_cons, ih]
    cases leaf with
    | word category =>
      have hkeys : (Leaf.word category :: leaves).filterMap Leaf.key? =
          category.key :: leaves.filterMap Leaf.key? := rfl
      simp [hkeys, drawAll, Leaf.tell, drawWord_eq_map, Leaf.texts]
    | literal text =>
      have hkeys : (Leaf.literal text :: leaves).filterMap Leaf.key? =
          leaves.filterMap Leaf.key? := rfl
      simp [hkeys, Leaf.tell, Leaf.texts]

/-! ### Joining in stages -/

/-- Some texts with a space before each of them. -/
def spaced : List String → String
  | [] => ""
  | text :: texts => " " ++ text ++ spaced texts

theorem spaced_append (texts others : List String) :
    spaced (texts ++ others) = spaced texts ++ spaced others := by
  induction texts with
  | nil => simp [spaced]
  | cons text texts ih => simp [spaced, ih, String.append_assoc]

theorem intercalate_cons_eq_spaced (text : String) (texts : List String) :
    " ".intercalate (text :: texts) = text ++ spaced texts := by
  induction texts generalizing text with
  | nil => simp [spaced]
  | cons other texts ih =>
    rw [String.intercalate_cons_cons, ih, spaced]
    simp [String.append_assoc]

/-- Leaves that are joined and then put behind a space are put behind a space each. -/
theorem map_space_intercalate {leaves : List Leaf} (h : leaves ≠ []) :
    (fun texts => " " ++ " ".intercalate texts) <$> leaves.mapM (Leaf.tell (σ := σ)) =
      spaced <$> leaves.mapM Leaf.tell := by
  obtain ⟨leaf, leaves, rfl⟩ := List.exists_cons_of_ne_nil h
  simp [intercalate_cons_eq_spaced, spaced, String.append_assoc]

/-- Parts that are told as their leaves are told one after the other as all of their leaves. -/
theorem map_spaced_tellAll {parts : List Derivation}
    (h : ∀ part ∈ parts, part.leaves ≠ [] ∧
      part.tell (σ := σ) = " ".intercalate <$> part.leaves.mapM Leaf.tell) :
    spaced <$> Derivation.tellAll parts =
      spaced <$> (Derivation.leavesAll parts).mapM (Leaf.tell (σ := σ)) := by
  induction parts with
  | nil => rfl
  | cons part parts ih =>
    obtain ⟨hne, htell⟩ := h part (List.mem_cons_self ..)
    have hrest := ih fun other hother => h other (List.mem_cons_of_mem _ hother)
    calc spaced <$> Derivation.tellAll (part :: parts)
        = (do
            let first ← (fun text => " " ++ text) <$> part.tell
            let rest ← spaced <$> Derivation.tellAll parts
            return first ++ rest) := by
          simp [Derivation.tellAll, spaced]
      _ = (do
            let first ← spaced <$> part.leaves.mapM Leaf.tell
            let rest ← spaced <$> (Derivation.leavesAll parts).mapM Leaf.tell
            return first ++ rest) := by
          rw [hrest, htell, ← map_space_intercalate hne, Functor.map_map]
      _ = spaced <$> (Derivation.leavesAll (part :: parts)).mapM Leaf.tell := by
          simp [Derivation.leavesAll, spaced_append]

/-- Joining the texts of the parts is joining the texts of all of their leaves. -/
theorem map_intercalate_tellAll {parts : List Derivation} (hparts : parts ≠ [])
    (h : ∀ part ∈ parts, part.leaves ≠ [] ∧
      part.tell (σ := σ) = " ".intercalate <$> part.leaves.mapM Leaf.tell) :
    " ".intercalate <$> Derivation.tellAll parts =
      " ".intercalate <$> (Derivation.leavesAll parts).mapM (Leaf.tell (σ := σ)) := by
  obtain ⟨part, parts, rfl⟩ := List.exists_cons_of_ne_nil hparts
  obtain ⟨hne, htell⟩ := h part (List.mem_cons_self ..)
  obtain ⟨leaf, leaves, hleaves⟩ := List.exists_cons_of_ne_nil hne
  have hrest := map_spaced_tellAll fun other hother => h other (List.mem_cons_of_mem _ hother)
  calc " ".intercalate <$> Derivation.tellAll (part :: parts)
      = (do
          let first ← part.tell
          let rest ← spaced <$> Derivation.tellAll parts
          return first ++ rest) := by
        simp [Derivation.tellAll, intercalate_cons_eq_spaced]
    _ = (do
          let first ← " ".intercalate <$> (leaf :: leaves).mapM Leaf.tell
          let rest ← spaced <$> (Derivation.leavesAll parts).mapM Leaf.tell
          return first ++ rest) := by
        rw [hrest, htell, hleaves]
    _ = " ".intercalate <$> (Derivation.leavesAll (part :: parts)).mapM Leaf.tell := by
        rw [Derivation.leavesAll, hleaves]
        simp [intercalate_cons_eq_spaced, spaced_append, String.append_assoc]

namespace Grammar

variable {g : Grammar}

/-- Every alternative has a symbol, so every rule of a derivation has a part. -/
theorem parts_ne_nil {name : String} {alternatives : List Alternative} {index : Nat}
    {parts : List Derivation} (hrule : g.rules[name]? = some alternatives)
    (halternative : alternatives[index]? = some (parts.map Derivation.root)) : parts ≠ [] := by
  rintro rfl
  have hmem := List.mem_of_getElem? halternative
  exact g.wellFormed.alternative_ne_nil name alternatives hrule _ hmem rfl

/-- A derivation is told by telling its leaves from left to right and joining their texts. -/
theorem tell_eq_map_mapM {d : Derivation} (hd : g.IsDerivation d) :
    d.leaves ≠ [] ∧ d.tell (σ := σ) = " ".intercalate <$> d.leaves.mapM Leaf.tell := by
  induction hd with
  | word category => simp [Derivation.leaves, Derivation.tell, Leaf.tell]
  | literal text => simp [Derivation.leaves, Derivation.tell, Leaf.tell]
  | @rule name alternatives index parts hrule halternative hparts ih =>
    have hne := parts_ne_nil hrule halternative
    refine ⟨?_, ?_⟩
    · obtain ⟨part, parts, rfl⟩ := List.exists_cons_of_ne_nil hne
      rw [Derivation.leaves, Derivation.leavesAll]
      exact List.append_ne_nil_of_left_ne_nil (ih part (List.mem_cons_self ..)).1 _
    · rw [Derivation.tell, Derivation.leaves, ← map_intercalate_tellAll hne ih, map_eq_pure_bind]

/-- **A derivation is told from the answers to its draws.** -/
theorem tell_eq_map_drawAll {d : Derivation} (hd : g.IsDerivation d) :
    d.tell (σ := σ) = d.text <$> drawAll d.keys := by
  rw [(tell_eq_map_mapM hd).2, mapM_leaf_tell, Functor.map_map]
  rfl

end Grammar

/-! ### The answers of a store -/

/-- `Answers store keys words after`: when a word is drawn from each of the keys in turn, the store
answers with these words, without a failure, and is left as `after`. -/
inductive Answers : σ → List String → List (Option String) → σ → Prop
  | nil (store : σ) : Answers store [] [] store
  | cons {store between after : σ} {key : String} {keys : List String} {word : Option String}
      {words : List (Option String)}
      (hword : WordStore.randomMember key store = (.ok word, between))
      (hwords : Answers between keys words after) :
      Answers store (key :: keys) (word :: words) after

theorem drawAll_cons (key : String) (keys : List String) :
    drawAll (σ := σ) (key :: keys) = (do
      let word ← WordStore.randomMember key
      let words ← drawAll keys
      return word :: words) := by
  rw [drawAll, List.mapM_cons, drawAll]

/-- A store that holds no words, and is not changed by draws, answers each of them with none. -/
theorem answers_none {store : σ}
    (h : ∀ key, WordStore.randomMember key store = (.ok none, store)) (keys : List String) :
    Answers store keys (keys.map fun _ => none) store := by
  induction keys with
  | nil => exact .nil store
  | cons key keys ih => exact .cons (h key) ih

/-- A store in memory starts without words. -/
theorem MemoryStore.answers_seeded (seed : UInt64) (keys : List String) :
    Answers (MemoryStore.seeded seed) keys (keys.map fun _ => none) (MemoryStore.seeded seed) := by
  refine answers_none (fun key => ?_) keys
  simp [WordStore.randomMember, MemoryStore.draw, MemoryStore.members, MemoryStore.seeded,
    MemoryStore.empty]

/-- If no draw fails, all answers are returned. -/
theorem drawAll_of_answers {store after : σ} {keys : List String} {words : List (Option String)}
    (h : Answers store keys words after) : drawAll keys store = (.ok words, after) := by
  induction h with
  | nil store => rfl
  | cons hword hwords ih =>
    rw [drawAll_cons, Asking.bind_of_ok _ hword, Asking.bind_of_ok _ ih]
    rfl

/-- The first draw that fails is the last. -/
theorem drawAll_of_failure {store between after : σ} {keys rest : List String} {key : String}
    {words : List (Option String)} {cause : StoreError} (h : Answers store keys words between)
    (hfail : WordStore.randomMember key between = (.error cause, after)) :
    drawAll (keys ++ key :: rest) store = (.error cause, after) := by
  induction h with
  | nil store => rw [List.nil_append, drawAll_cons, Asking.bind_of_error _ hfail]
  | cons hword hwords ih =>
    rw [List.cons_append, drawAll_cons, Asking.bind_of_ok _ hword,
      Asking.bind_of_error _ (ih hfail)]

namespace Logged

/-- Beside a log, a store answers as it would without, and the draw is recorded. -/
theorem randomMember_of_eq {store after : σ} {key : String}
    {answer : Except StoreError (Option String)} (asked : List Question)
    (h : WordStore.randomMember key store = (answer, after)) :
    WordStore.randomMember key (Logged.mk store asked) =
      (answer, Logged.mk after (.random key :: asked)) := by
  simp [WordStore.randomMember, ask, h]

/-- The log after some draws. -/
def afterDraws (keys : List String) (store : σ) (asked : List Question) : Logged σ :=
  ⟨store, (keys.map .random).reverse ++ asked⟩

omit [WordStore σ] in
theorem history_afterDraws (keys : List String) (store : σ) :
    (afterDraws keys store []).history = keys.map .random := by
  rw [afterDraws, history, List.append_nil, List.reverse_reverse]

/-- Beside a log, the draws are recorded in their order. -/
theorem answers {store after : σ} {keys : List String} {words : List (Option String)}
    (h : Answers store keys words after) (asked : List Question) :
    Answers (Logged.mk store asked) keys words (afterDraws keys after asked) := by
  induction h generalizing asked with
  | nil store => exact .nil _
  | cons hword hwords ih =>
    refine .cons (randomMember_of_eq asked hword) ?_
    simpa [afterDraws] using ih (_ :: asked)

/-- Beside a log, a draw that fails is recorded after those before it. -/
theorem randomMember_afterDraws {between after : σ} {key : String}
    {answer : Except StoreError (Option String)} (keys : List String) (asked : List Question)
    (h : WordStore.randomMember key between = (answer, after)) :
    WordStore.randomMember key (afterDraws keys between asked) =
      (answer, afterDraws (keys ++ [key]) after asked) := by
  rw [afterDraws, randomMember_of_eq _ h]
  simp [afterDraws]

end Logged

/-! ### Expansions -/

namespace Grammar

variable {g : Grammar} {γ : Type} [ChoiceSource γ]

/-- If no draw fails, a derivation is told as its leaves with the words in their places. -/
theorem tell_of_answers {d : Derivation} (hd : g.IsDerivation d) {store after : σ}
    {words : List (Option String)} (h : Answers store d.keys words after) :
    d.tell store = (.ok (d.text words), after) := by
  rw [tell_eq_map_drawAll hd]
  exact Asking.map_of_ok _ (drawAll_of_answers h)

/-- The first draw that fails ends the telling of a derivation. -/
theorem tell_of_failure {d : Derivation} (hd : g.IsDerivation d) {store between after : σ}
    {k : Nat} (hk : k < d.keys.length) {words : List (Option String)} {cause : StoreError}
    (h : Answers store (d.keys.take k) words between)
    (hfail : WordStore.randomMember d.keys[k] between = (.error cause, after)) :
    d.tell store = (.error cause, after) := by
  have hsplit : d.keys = d.keys.take k ++ d.keys[k] :: d.keys.drop (k + 1) := by
    rw [List.getElem_cons_drop, List.take_append_drop]
  rw [tell_eq_map_drawAll hd, hsplit]
  exact Asking.map_of_error _ (drawAll_of_failure h hfail)

/-- **Expansion tells a derivation.** From every symbol that a grammar resolves, the source of
choices fixes a derivation of the grammar with that symbol as its root, and for every store:

* If no draw fails, the text is that of the leaves, joined by single spaces, with each drawn word
  or its placeholder in its place, and the store was asked for one word for each leaf that needs
  one, from left to right, and for nothing else.
* If a draw is the first to fail, the expansion fails with its cause, and the store was asked for
  nothing after it. -/
theorem exists_derivation_told {s : Symbol} (hs : g.Resolves s) (source : γ) :
    ∃ d : Derivation, g.IsDerivation d ∧ d.root = s ∧ ∀ {σ : Type} [WordStore σ] (store : σ),
      (∀ words after, Answers store d.keys words after →
        g.expandSymbol s source store = (.ok (d.text words), after) ∧
        ∃ log : Logged σ,
          g.expandSymbol s source (Logged.mk store []) = (.ok (d.text words), log) ∧
          log.store = after ∧ log.history = d.keys.map .random) ∧
      (∀ k (hk : k < d.keys.length) words between cause after,
        Answers store (d.keys.take k) words between →
        WordStore.randomMember d.keys[k] between = (.error cause, after) →
        g.expandSymbol s source store = (.error cause, after) ∧
        ∃ log : Logged σ,
          g.expandSymbol s source (Logged.mk store []) = (.error cause, log) ∧
          log.store = after ∧ log.history = (d.keys.take (k + 1)).map .random) := by
  have hd := isDerivation_derive hs.covers source
  refine ⟨g.derive s source, hd, root_derive hs.covers source, fun store => ⟨?_, ?_⟩⟩
  · intro words after h
    exact ⟨tell_of_answers hd h, _, tell_of_answers hd (Logged.answers h []), rfl,
      Logged.history_afterDraws ..⟩
  · intro k hk words between cause after h hfail
    have hlogged := Logged.randomMember_afterDraws ((g.derive s source).keys.take k) [] hfail
    refine ⟨tell_of_failure hd hk h hfail, _, tell_of_failure hd hk (Logged.answers h []) hlogged,
      rfl, ?_⟩
    rw [Logged.history_afterDraws, List.take_append_getElem hk]

/-- Told without any words, a sentence of the built-in grammar is made of placeholders. -/
theorem exists_derivation_told_english :
    english.Resolves english.startSymbol ∧
      ∃ d : Derivation, english.IsDerivation d ∧ d.root = english.startSymbol ∧
        english.expandSymbol english.startSymbol (NumberStream.ofSeed 7) (MemoryStore.seeded 3) =
          (.ok (d.text (d.keys.map fun _ => none)), MemoryStore.seeded 3) := by
  have hs : english.Resolves english.startSymbol := Or.inl rfl
  obtain ⟨d, hd, hroot, htold⟩ := exists_derivation_told hs (NumberStream.ofSeed 7)
  exact ⟨hs, d, hd, hroot, ((htold _).1 _ _ (MemoryStore.answers_seeded 3 d.keys)).1⟩

end Grammar

end RandomSentences
