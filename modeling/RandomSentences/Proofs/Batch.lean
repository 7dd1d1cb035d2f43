import Mathlib.Algebra.Group.Nat.Defs
import RandomSentences.Proofs.Completion

/-!
# Batches of a service with a seed

The sentences of a batch may be generated at the same time, each with a seed of its own. Over a
store that answers at once this cannot be told from a loop that generates one sentence after the
other: every sentence is finished before the next one draws a word, and nothing is drawn after a
failure. `Grammar.generateInTurn` is this loop, and `batchSeeds` are the seeds that it goes through,
which start again from zero when they run over.

A loop that succeeds can be stopped before any seed (`Grammar.exists_generateInTurn_take`), and one
that fails does so at some seed and not before (`Grammar.exists_generateSeeded_error`). So a smaller
batch has the sentences at the start of a larger one.
-/

namespace RandomSentences

/-! ### One sentence after the other -/

namespace Grammar

variable {σ : Type} [WordStore σ]

/-- Generates the sentences of some seeds, one after the other. The first failure ends it. -/
def generateInTurn (g : Grammar) : List UInt64 → σ → Except StoreError (List String) × σ
  | [], store => (.ok [], store)
  | seed :: seeds, store =>
    match g.generateSeeded seed store with
    | (.error cause, store) => (.error cause, store)
    | (.ok sentence, store) =>
      match g.generateInTurn seeds store with
      | (.error cause, store) => (.error cause, store)
      | (.ok sentences, store) => (.ok (sentence :: sentences), store)

variable {g : Grammar}

theorem generateInTurn_eq_mapM (seeds : List UInt64) :
    g.generateInTurn seeds = (seeds.mapM g.generateSeeded : Asking σ (List String)) := by
  induction seeds with
  | nil => rfl
  | cons seed seeds ih =>
    funext store
    rw [generateInTurn, List.mapM_cons]
    split
    · rename_i hsentence
      rw [Asking.bind_of_error _ hsentence]
    · rename_i hsentence
      rw [Asking.bind_of_ok _ hsentence]
      split
      · rename_i hsentences
        rw [ih] at hsentences
        rw [Asking.bind_of_error _ hsentences]
      · rename_i hsentences
        rw [ih] at hsentences
        rw [Asking.bind_of_ok _ hsentences]
        rfl

/-- The loop succeeds if the first sentence does, and the loop through the other seeds after it. -/
theorem generateInTurn_cons_eq_ok_iff {seed : UInt64} {seeds : List UInt64} {store after : σ}
    {sentences : List String} :
    g.generateInTurn (seed :: seeds) store = (.ok sentences, after) ↔
      ∃ sentence rest between, g.generateSeeded seed store = (.ok sentence, between) ∧
        g.generateInTurn seeds between = (.ok rest, after) ∧ sentences = sentence :: rest := by
  rw [generateInTurn]
  constructor
  · intro h
    split at h
    · simp at h
    · rename_i sentence between hsentence
      split at h
      · simp at h
      · rename_i rest last hrest
        obtain ⟨rfl, rfl⟩ : sentence :: rest = sentences ∧ last = after := by simpa using h
        exact ⟨sentence, rest, between, hsentence, hrest, rfl⟩
  · rintro ⟨sentence, rest, between, hsentence, hrest, rfl⟩
    simp only [hsentence, hrest]

/-- The loop fails if the first sentence does, or the loop through the other seeds after it. -/
theorem generateInTurn_cons_eq_error {seed : UInt64} {seeds : List UInt64} {store after : σ}
    {cause : StoreError} (h : g.generateInTurn (seed :: seeds) store = (.error cause, after)) :
    g.generateSeeded seed store = (.error cause, after) ∨
      ∃ sentence between, g.generateSeeded seed store = (.ok sentence, between) ∧
        g.generateInTurn seeds between = (.error cause, after) := by
  rw [generateInTurn] at h
  split at h
  · rename_i first last hsentence
    obtain ⟨rfl, rfl⟩ : first = cause ∧ last = after := by simpa using h
    exact .inl hsentence
  · rename_i sentence between hsentence
    split at h
    · rename_i hrest
      exact .inr ⟨sentence, between, hsentence, hrest.trans h⟩
    · simp at h

theorem length_of_generateInTurn {seeds : List UInt64} {store after : σ} {sentences : List String}
    (h : g.generateInTurn seeds store = (.ok sentences, after)) :
    sentences.length = seeds.length := by
  induction seeds generalizing store sentences with
  | nil =>
    obtain ⟨rfl, -⟩ : [] = sentences ∧ store = after := by simpa [generateInTurn] using h
    rfl
  | cons seed seeds ih =>
    obtain ⟨sentence, rest, between, -, hrest, rfl⟩ := generateInTurn_cons_eq_ok_iff.mp h
    rw [List.length_cons, List.length_cons, ih hrest]

/-- A loop that succeeds can be stopped before any seed, and be taken up there again. -/
theorem exists_generateInTurn_take {seeds : List UInt64} {store after : σ}
    {sentences : List String} (h : g.generateInTurn seeds store = (.ok sentences, after))
    (k : Nat) :
    ∃ between, g.generateInTurn (seeds.take k) store = (.ok (sentences.take k), between) ∧
      g.generateInTurn (seeds.drop k) between = (.ok (sentences.drop k), after) := by
  induction seeds generalizing store sentences k with
  | nil =>
    obtain ⟨rfl, rfl⟩ : [] = sentences ∧ store = after := by simpa [generateInTurn] using h
    exact ⟨store, by simp [generateInTurn], by simp [generateInTurn]⟩
  | cons seed seeds ih =>
    cases k with
    | zero => exact ⟨store, rfl, h⟩
    | succ k =>
      obtain ⟨sentence, rest, between, hsentence, hrest, rfl⟩ := generateInTurn_cons_eq_ok_iff.mp h
      obtain ⟨stop, htake, hdrop⟩ := ih hrest k
      refine ⟨stop, ?_, hdrop⟩
      exact generateInTurn_cons_eq_ok_iff.mpr ⟨sentence, _, between, hsentence, htake, rfl⟩

/-- A loop that succeeds has the sentence of each seed, as it is generated after those before. -/
theorem exists_generateSeeded_getElem {seeds : List UInt64} {store after : σ}
    {sentences : List String} (h : g.generateInTurn seeds store = (.ok sentences, after))
    {k : Nat} (hk : k < seeds.length) :
    ∃ sentence between next, sentences[k]? = some sentence ∧
      g.generateInTurn (seeds.take k) store = (.ok (sentences.take k), between) ∧
      g.generateSeeded seeds[k] between = (.ok sentence, next) := by
  obtain ⟨between, htake, hdrop⟩ := exists_generateInTurn_take h k
  rw [List.drop_eq_getElem_cons hk] at hdrop
  obtain ⟨sentence, rest, next, hsentence, -, hrest⟩ := generateInTurn_cons_eq_ok_iff.mp hdrop
  refine ⟨sentence, between, next, ?_, htake, hsentence⟩
  rw [← List.head?_drop, hrest, List.head?_cons]

/-- A loop that fails does so at some seed, and not before. -/
theorem exists_generateSeeded_error {seeds : List UInt64} {store after : σ} {cause : StoreError}
    (h : g.generateInTurn seeds store = (.error cause, after)) :
    ∃ k, ∃ hk : k < seeds.length, ∃ sentences between,
      g.generateInTurn (seeds.take k) store = (.ok sentences, between) ∧
      g.generateSeeded seeds[k] between = (.error cause, after) := by
  induction seeds generalizing store with
  | nil => simp [generateInTurn] at h
  | cons seed seeds ih =>
    rcases generateInTurn_cons_eq_error h with hfail | ⟨sentence, between, hsentence, hrest⟩
    · exact ⟨0, by simp, [], store, rfl, hfail⟩
    · obtain ⟨k, hk, sentences, stop, htake, hfail⟩ := ih hrest
      refine ⟨k + 1, by simpa using hk, sentence :: sentences, stop, ?_, hfail⟩
      exact generateInTurn_cons_eq_ok_iff.mpr ⟨sentence, _, between, hsentence, htake, rfl⟩

/-- Over a store in memory, no sentence fails. -/
theorem exists_generateInTurn_memory (seeds : List UInt64) (store : MemoryStore) :
    ∃ sentences after, g.generateInTurn seeds store = (.ok sentences, after) := by
  induction seeds generalizing store with
  | nil => exact ⟨[], store, rfl⟩
  | cons seed seeds ih =>
    have hd := g.isDerivation_seededDerivation seed
    obtain ⟨words, between, hwords⟩ := MemoryStore.neverFails store (g.seededDerivation seed).keys
    have hsentence : g.generateSeeded seed store =
        (.ok (finishSentence ((g.seededDerivation seed).text words)), between) := by
      rw [generateSeeded_eq_map_tell]
      exact Asking.map_of_ok _ (tell_of_answers hd hwords)
    obtain ⟨rest, after, hrest⟩ := ih between
    exact ⟨_, after, generateInTurn_cons_eq_ok_iff.mpr ⟨_, rest, between, hsentence, hrest, rfl⟩⟩

end Grammar

/-! ### The seeds of a batch -/

/-- The seed of the sentence of a batch at some index. -/
def batchSeed (seed : UInt64) (index : Nat) : UInt64 :=
  UInt64.ofNat ((seed.toNat + 1000 * index) % 2 ^ 64)

/-- The seeds of the first sentences of a batch. -/
def batchSeeds (seed : UInt64) (count : Nat) : List UInt64 :=
  (List.range count).map (batchSeed seed)

/-- Counting seeds on with their own arithmetic is counting on with numbers and starting again from
zero when the seeds run over. -/
theorem add_mul_seedStride (seed : UInt64) (index : Nat) :
    seed + UInt64.ofNat index * seedStride = batchSeed seed index := by
  apply UInt64.toNat_inj.mp
  simp only [batchSeed, seedStride, UInt64.toNat_add, UInt64.toNat_mul, UInt64.toNat_ofNat',
    UInt64.reduceToNat]
  omega

theorem length_batchSeeds (seed : UInt64) (count : Nat) :
    (batchSeeds seed count).length = count := by
  rw [batchSeeds, List.length_map, List.length_range]

theorem getElem_batchSeeds {seed : UInt64} {count k : Nat}
    (hk : k < (batchSeeds seed count).length) :
    (batchSeeds seed count)[k] = batchSeed seed k := by
  simp [batchSeeds]

/-- The seeds of a smaller batch are the first ones of a larger. -/
theorem take_batchSeeds (seed : UInt64) {fewer count : Nat} (h : fewer ≤ count) :
    (batchSeeds seed count).take fewer = batchSeeds seed fewer := by
  rw [batchSeeds, batchSeeds, ← List.map_take, List.take_range, Nat.min_eq_left h]

/-! ### Batches -/

namespace SentenceService

variable {γ : Type} [ChoiceSource γ] {σ : Type} [WordStore σ] {service : SentenceService}
  {seed : UInt64}

/-- Generates the sentences of a batch at the same time, over a store that answers every lookup at
once: their tasks are polled a single time. The result is none if some of them are not done then. -/
def generateTogether (service : SentenceService) (sources : Nat → γ) (count : SentenceCount) :
    Asking σ (Option (List String)) :=
  (fun tasks => (Task.texts? tasks).map (List.map finishSentence)) <$>
    Task.pollAll Task.atOnce (Task.startAll (service.derivations sources count) 0)

/-- Over a store that answers at once, a batch is done after one poll. -/
theorem generateTogether_eq_map_generateMany (service : SentenceService) (sources : Nat → γ)
    (count : SentenceCount) :
    (service.generateTogether sources count : Asking σ (Option (List String))) =
      some <$> service.generateMany sources count := by
  rw [generateTogether, Task.pollAll_startAll, generateMany_eq_map_tellAll, Functor.map_map,
    Functor.map_map]
  congr 1
  funext texts
  rw [Task.texts?_map_done, Option.map_some]

/-- The sentence of a batch at some index has the seed at this index. -/
theorem sentence_eq_generateSeeded (hseed : service.seed = some seed) (sources : Nat → γ)
    (index : Nat) :
    service.sentence sources index =
      (service.grammar.generateSeeded (batchSeed seed index) : Asking σ String) := by
  rw [sentence, hseed, ← add_mul_seedStride]

/-- The batch of a service with a seed is the loop through the seeds of the batch. -/
theorem generateMany_eq_generateInTurn (hseed : service.seed = some seed) (sources : Nat → γ)
    (count : SentenceCount) :
    service.generateMany sources count =
      (service.grammar.generateInTurn (batchSeeds seed count.value) :
        σ → Except StoreError (List String) × σ) := by
  rw [Grammar.generateInTurn_eq_mapM, generateMany, batchSeeds, List.mapM_map]
  simp only [sentence_eq_generateSeeded hseed]
  rfl

/-- The same holds if its sentences are generated at the same time. -/
theorem generateTogether_eq_generateInTurn (hseed : service.seed = some seed) (sources : Nat → γ)
    (count : SentenceCount) (store : σ) :
    service.generateTogether sources count store =
      Prod.map (Except.map some) id
        (service.grammar.generateInTurn (batchSeeds seed count.value) store) := by
  rw [generateTogether_eq_map_generateMany, generateMany_eq_generateInTurn hseed]
  rcases h : service.grammar.generateInTurn (batchSeeds seed count.value) store with
    ⟨cause | sentences, after⟩
  · exact Asking.map_of_error some h
  · exact Asking.map_of_ok some h

/-- **A batch with a seed is generated as if in turn.** Over every store that answers at once:

* A batch has the result of the loop through its seeds and leaves the store as the loop does, also
  if its sentences are generated at the same time; and the store is asked the same questions in the
  same order.
* If it succeeds, there are as many sentences as were asked for, and each is the one of its seed,
  generated after those before it.
* If it fails, then as the first sentence that fails, generated after those before it.
* Whenever a batch succeeds, so does a smaller one, and has the first of its sentences. -/
theorem generateMany_in_turn (hseed : service.seed = some seed) (sources : Nat → γ)
    (count : SentenceCount) (store : σ) :
    (service.generateMany sources count store =
        service.grammar.generateInTurn (batchSeeds seed count.value) store ∧
      service.generateTogether sources count store =
        Prod.map (Except.map some) id
          (service.grammar.generateInTurn (batchSeeds seed count.value) store) ∧
      (service.generateMany sources count (Logged.mk store [])).2.history =
        (service.grammar.generateInTurn (batchSeeds seed count.value)
          (Logged.mk store [])).2.history ∧
      (service.generateTogether sources count (Logged.mk store [])).2.history =
        (service.grammar.generateInTurn (batchSeeds seed count.value)
          (Logged.mk store [])).2.history) ∧
    (∀ sentences after, service.generateMany sources count store = (.ok sentences, after) →
      sentences.length = count.value ∧ ∀ k < count.value, ∃ sentence between next,
        sentences[k]? = some sentence ∧
        service.grammar.generateInTurn (batchSeeds seed k) store =
          (.ok (sentences.take k), between) ∧
        service.grammar.generateSeeded (batchSeed seed k) between = (.ok sentence, next)) ∧
    (∀ cause after, service.generateMany sources count store = (.error cause, after) →
      ∃ k < count.value, ∃ sentences between,
        service.grammar.generateInTurn (batchSeeds seed k) store = (.ok sentences, between) ∧
        service.grammar.generateSeeded (batchSeed seed k) between = (.error cause, after)) ∧
    ∀ (fewer : SentenceCount) sentences after, fewer.value ≤ count.value →
      service.generateMany sources count store = (.ok sentences, after) →
      ∃ between, service.generateMany sources fewer store =
        (.ok (sentences.take fewer.value), between) := by
  have hlength := length_batchSeeds seed count.value
  refine ⟨⟨by rw [generateMany_eq_generateInTurn hseed],
    generateTogether_eq_generateInTurn hseed sources count store,
    by rw [generateMany_eq_generateInTurn hseed],
    by rw [generateTogether_eq_generateInTurn hseed, Prod.map_snd, id_eq]⟩, ?_, ?_, ?_⟩
  · intro sentences after h
    rw [generateMany_eq_generateInTurn hseed] at h
    refine ⟨by rw [Grammar.length_of_generateInTurn h, hlength], fun k hk => ?_⟩
    have hsentence := Grammar.exists_generateSeeded_getElem h (by rwa [hlength])
    rwa [take_batchSeeds seed (Nat.le_of_lt hk), getElem_batchSeeds] at hsentence
  · intro cause after h
    rw [generateMany_eq_generateInTurn hseed] at h
    obtain ⟨k, hk, sentences, between, hbefore, hfail⟩ := Grammar.exists_generateSeeded_error h
    have hcount : k < count.value := hlength ▸ hk
    rw [take_batchSeeds seed (Nat.le_of_lt hcount)] at hbefore
    rw [getElem_batchSeeds] at hfail
    exact ⟨k, hcount, sentences, between, hbefore, hfail⟩
  · intro fewer sentences after hle h
    rw [generateMany_eq_generateInTurn hseed] at h
    obtain ⟨between, hfirst, -⟩ := Grammar.exists_generateInTurn_take h fewer.value
    rw [take_batchSeeds seed hle] at hfirst
    exact ⟨between, by rw [generateMany_eq_generateInTurn hseed, hfirst]⟩

/-- Three sentences of the built-in grammar, whose seeds run over after the first, and two of
them. -/
theorem generateMany_in_turn_english :
    (SentenceService.mk Grammar.english (some (UInt64.ofNat (2 ^ 64 - 500)))).seed =
        some (UInt64.ofNat (2 ^ 64 - 500)) ∧
      batchSeeds (UInt64.ofNat (2 ^ 64 - 500)) 3 = [UInt64.ofNat (2 ^ 64 - 500), 500, 1500] ∧
      ∃ sentences after between,
        (SentenceService.mk Grammar.english (some (UInt64.ofNat (2 ^ 64 - 500)))).generateMany
          (fun _ => NumberStream.ofSeed 0) (SentenceCount.ofNat 3) (MemoryStore.seeded 3) =
            (.ok sentences, after) ∧
        sentences.length = 3 ∧
        (SentenceService.mk Grammar.english (some (UInt64.ofNat (2 ^ 64 - 500)))).generateMany
          (fun _ => NumberStream.ofSeed 0) (SentenceCount.ofNat 2) (MemoryStore.seeded 3) =
            (.ok (sentences.take 2), between) := by
  obtain ⟨⟨hturn, -⟩, hok, -, hfewer⟩ := generateMany_in_turn
    (show (SentenceService.mk Grammar.english (some (UInt64.ofNat (2 ^ 64 - 500)))).seed =
      some (UInt64.ofNat (2 ^ 64 - 500)) from rfl)
    (fun _ => NumberStream.ofSeed 0) (SentenceCount.ofNat 3) (MemoryStore.seeded 3)
  obtain ⟨sentences, after, hsentences⟩ := Grammar.exists_generateInTurn_memory
    (g := Grammar.english) (batchSeeds (UInt64.ofNat (2 ^ 64 - 500)) 3) (MemoryStore.seeded 3)
  have hbatch := hturn.trans hsentences
  obtain ⟨between, hbetween⟩ := hfewer (SentenceCount.ofNat 2) sentences after (by decide) hbatch
  exact ⟨rfl, by decide, sentences, after, between, hbatch, (hok _ _ hbatch).1, hbetween⟩

end SentenceService

end RandomSentences
