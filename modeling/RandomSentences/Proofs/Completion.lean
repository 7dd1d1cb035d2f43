import RandomSentences.Proofs.Locality
import RandomSentences.Proofs.Task
import RandomSentences.Proofs.Template
import RandomSentences.Service.Basic

/-!
# The order in which lookups are answered

The lookups of an expansion, and those of all sentences of a batch, can be under way at the same
time. Each comes to a fixed `Answer`, which may arrive before or after those of the others. Here
the tasks of an expansion are polled once at the start and once after each *round* of answers; a
round with one answer is an answer on its own, and one without answers leaves all lookups pending
once more. Of a join it is assumed that it polls its parts in their order, keeps the texts of the
parts in this order, and fails as soon as it sees a failure.

What a poll comes to is described by `Task.Outcome`: the words that have arrived are in place, or
the result is a failure that has arrived (`Task.outcome_poll`). This is preserved from round to
round (`Task.outcome_run`), since putting words in place by and by is putting them in place at once.
When all words are there, the text is the one that is told if the answers are given from left to
right (`Task.exists_see_start`); `Replies` is the store that gives them so.

`CompletesAlike` says what this means for the result, and `completesAlike_expandSymbol_generateMany`
that it holds of every expansion and of every batch.
-/

namespace RandomSentences

/-- What a lookup of a word comes to: a word or none, or a failure. -/
abbrev Answer := Except StoreError (Option String)

/-- A store that answers its draws one after the other as was fixed in advance. -/
structure Replies where
  answers : Nat → Answer
  /-- The number of the next draw. -/
  next : Nat

instance : WordStore Replies where
  allMembers _ := return []
  randomMember _ := fun s => (s.answers s.next, { s with next := s.next + 1 })

namespace Derivation

theorem keys_word (category : Category) : (word category).keys = [category.key] :=
  rfl

theorem keys_literal (text : String) : (literal text).keys = [] :=
  rfl

theorem keys_rule (name : String) (index : Nat) (parts : List Derivation) :
    (rule name index parts).keys = parts.flatMap keys := by
  rw [keys, leaves, leavesAll_eq_flatMap, List.filterMap_flatMap]
  rfl

end Derivation

namespace Task

variable {answers : Nat → Answer}

/-! ### Answers that arrive in rounds -/

/-- Asks for the answers that have arrived, which are those of the lookups at the given places. -/
def arrived (answers : Nat → Answer) (places : List Nat) (place : Nat) (_ : Category) :
    Except StoreError (Option (Option String)) :=
  if place ∈ places then some <$> answers place else .ok none

/-- Polls at the start and again after each round of answers. A round lists the places at which
answers arrive since the last poll: one, several or none. -/
def run {τ : Type} (poll : List Nat → τ → Except StoreError τ) :
    (places : List Nat) → (rounds : List (List Nat)) → τ → Except StoreError τ
  | places, [], task => poll places task
  | places, round :: rounds, task => do run poll (places ++ round) rounds (← poll places task)

/-- The words among the answers that have arrived. -/
def words (answers : Nat → Answer) (places : List Nat) (place : Nat) : Option (Option String) :=
  if place ∈ places then (answers place).toOption else none

theorem words_eq_some_iff {places : List Nat} {place : Nat} {word : Option String} :
    words answers places place = some word ↔ place ∈ places ∧ answers place = .ok word := by
  by_cases hplace : place ∈ places
  · cases hanswer : answers place <;> simp [words, hplace, hanswer, Except.toOption]
  · simp [words, hplace]

/-- Words that have arrived are still there when more have. -/
theorem words_append {places more : List Nat} {place : Nat} {word : Option String}
    (h : words answers places place = some word) :
    words answers (places ++ more) place = some word := by
  rw [words_eq_some_iff] at h ⊢
  exact ⟨List.mem_append_left _ h.1, h.2⟩

/-- `Outcome answers places lookups seen result`: of the answers that have arrived at the places of
some lookups, none is a failure, and the result is what is seen then; or the result is one of these
failures. -/
inductive Outcome {τ : Type} (answers : Nat → Answer) (places lookups : List Nat) (seen : τ) :
    Except StoreError τ → Prop
  | ok (hwords : ∀ place ∈ lookups, place ∈ places → ∃ word, answers place = .ok word) :
      Outcome answers places lookups seen (.ok seen)
  | error {place : Nat} {cause : StoreError} (hlookup : place ∈ lookups) (hplace : place ∈ places)
      (hanswer : answers place = .error cause) :
      Outcome answers places lookups seen (.error cause)

namespace Outcome

variable {τ υ : Type} {places lookups others : List Nat}

theorem map {seen : τ} {result : Except StoreError τ} (f : τ → υ)
    (h : Outcome answers places lookups seen result) :
    Outcome answers places lookups (f seen) (f <$> result) := by
  cases h with
  | ok hwords => exact .ok hwords
  | error hlookup hplace hanswer => exact .error hlookup hplace hanswer

/-- Of two results that are waited for one after the other, the first failure counts. -/
theorem cons {seen : τ} {result : Except StoreError τ} {seenAll : List τ}
    {results : Except StoreError (List τ)} (h : Outcome answers places lookups seen result)
    (hall : Outcome answers places others seenAll results) :
    Outcome answers places (lookups ++ others) (seen :: seenAll)
      (do return (← result) :: (← results)) := by
  cases h with
  | error hlookup hplace hanswer =>
    exact .error (List.mem_append_left _ hlookup) hplace hanswer
  | ok hwords =>
    cases hall with
    | error hlookup hplace hanswer =>
      exact .error (List.mem_append_right _ hlookup) hplace hanswer
    | ok hothers =>
      refine .ok fun place hlookup => ?_
      rcases List.mem_append.mp hlookup with hlookup | hlookup
      · exact hwords place hlookup
      · exact hothers place hlookup

variable {seen : τ} {result : Except StoreError τ}

/-- If no failure has arrived, the result is what is seen. -/
theorem eq_ok (h : Outcome answers places lookups seen result)
    (hwords : ∀ place ∈ lookups, place ∈ places → ∃ word, answers place = .ok word) :
    result = .ok seen := by
  cases h with
  | ok _ => rfl
  | error hlookup hplace hanswer =>
    obtain ⟨word, hword⟩ := hwords _ hlookup hplace
    exact absurd (hanswer.symm.trans hword) (by simp)

/-- If a failure has arrived, the result is a failure that has. -/
theorem exists_eq_error (h : Outcome answers places lookups seen result) {place : Nat}
    {cause : StoreError} (hlookup : place ∈ lookups) (hplace : place ∈ places)
    (hanswer : answers place = .error cause) :
    ∃ other ∈ lookups, other ∈ places ∧
      ∃ cause, answers other = .error cause ∧ result = .error cause := by
  cases h with
  | ok hwords =>
    obtain ⟨word, hword⟩ := hwords place hlookup hplace
    exact absurd (hanswer.symm.trans hword) (by simp)
  | error hother hplace hanswer => exact ⟨_, hother, hplace, _, hanswer, rfl⟩

/-- A result that is not a failure is what is seen. -/
theorem eq_seen {other : τ} (h : Outcome answers places lookups seen (.ok other)) :
    other = seen := by
  cases h with
  | ok _ => rfl

end Outcome

/-! ### What a poll preserves -/

theorem outcome_arrived (answers : Nat → Answer) (places : List Nat) (place : Nat)
    (category : Category) :
    Outcome answers places [place] (words answers places place)
      (arrived answers places place category) := by
  by_cases hplace : place ∈ places
  · rw [words, arrived, if_pos hplace, if_pos hplace]
    cases hanswer : answers place with
    | ok word =>
      refine .ok fun other hother _ => ?_
      obtain rfl : other = place := by simpa using hother
      exact ⟨word, hanswer⟩
    | error cause => exact .error (List.mem_singleton_self place) hplace hanswer
  · rw [words, arrived, if_neg hplace, if_neg hplace]
    refine .ok fun other hother hmem => ?_
    obtain rfl : other = place := by simpa using hother
    exact absurd hmem hplace

mutual

/-- A poll puts the words in place that have arrived, or fails with a failure that has. -/
theorem outcome_poll (answers : Nat → Answer) (places : List Nat) : ∀ task : Task,
    Outcome answers places task.lookups (task.see (words answers places))
      (task.poll (arrived answers places))
  | .lookup place category => by
    rw [poll, see, lookups]
    exact (outcome_arrived answers places place category).map _
  | .done text => .ok (by simp [lookups])
  | .join parts => by
    rw [poll, see, lookups]
    exact (outcome_pollAll answers places parts).map _

theorem outcome_pollAll (answers : Nat → Answer) (places : List Nat) : ∀ tasks : List Task,
    Outcome answers places (lookupsAll tasks) (seeAll (words answers places) tasks)
      (pollAll (arrived answers places) tasks)
  | [] => .ok (by simp [lookupsAll])
  | task :: tasks => by
    rw [pollAll, seeAll, lookupsAll]
    exact (outcome_poll answers places task).cons (outcome_pollAll answers places tasks)

end

/-! ### What a run preserves -/

section Run

variable {τ : Type} {poll : List Nat → τ → Except StoreError τ} {lookups : τ → List Nat}
  {see : (Nat → Option (Option String)) → τ → τ}

/-- If every poll puts the words in place that have arrived or fails with a failure that has, then
so does a run through all rounds: it does not matter in which rounds the answers arrive. -/
theorem outcome_run
    (hpoll : ∀ places task, Outcome answers places (lookups task)
      (see (words answers places) task) (poll places task))
    (hlookups : ∀ words task place, place ∈ lookups (see words task) ↔
      place ∈ lookups task ∧ words place = none)
    (hsee : ∀ words more task, (∀ place word, words place = some word → more place = some word) →
      see more (see words task) = see more task)
    (places : List Nat) (rounds : List (List Nat)) (task : τ) :
    Outcome answers (places ++ rounds.flatten) (lookups task)
      (see (words answers (places ++ rounds.flatten)) task) (run poll places rounds task) := by
  induction rounds generalizing places task with
  | nil => simpa [run] using hpoll places task
  | cons round rounds ih =>
    rw [run, List.flatten_cons, ← List.append_assoc]
    have hfirst := hpoll places task
    generalize poll places task = result at hfirst
    cases hfirst with
    | error hlookup hplace hanswer =>
      refine .error hlookup ?_ hanswer
      exact List.mem_append_left _ (List.mem_append_left _ hplace)
    | ok hwords =>
      have hrest := ih (places ++ round) (see (words answers places) task)
      rw [hsee _ _ _ fun place word h => by
        rw [List.append_assoc]
        exact words_append h] at hrest
      show Outcome _ _ _ _ (run poll (places ++ round) rounds (see (words answers places) task))
      generalize run poll (places ++ round) rounds (see (words answers places) task) = result
        at hrest
      cases hrest with
      | error hlookup hplace hanswer =>
        exact .error ((hlookups _ _ _).mp hlookup).1 hplace hanswer
      | ok hothers =>
        refine .ok fun place hlookup hplace => ?_
        -- an answer that the first poll did not see is one that the task goes on waiting for
        by_cases hseen : place ∈ places
        · exact hwords place hlookup hseen
        · refine hothers place ((hlookups _ _ _).mpr ⟨hlookup, ?_⟩) hplace
          rw [words, if_neg hseen]

end Run

theorem outcome_run_poll (answers : Nat → Answer) (rounds : List (List Nat)) (task : Task) :
    Outcome answers rounds.flatten task.lookups (task.see (words answers rounds.flatten))
      (run (fun places => poll (arrived answers places)) [] rounds task) := by
  have h := outcome_run (outcome_poll answers) (fun _ task _ => mem_lookups_see task)
    (fun _ _ task h => see_see h task) [] rounds task
  rwa [List.nil_append] at h

theorem outcome_run_pollAll (answers : Nat → Answer) (rounds : List (List Nat))
    (tasks : List Task) :
    Outcome answers rounds.flatten (lookupsAll tasks)
      (seeAll (words answers rounds.flatten) tasks)
      (run (fun places => pollAll (arrived answers places)) [] rounds tasks) := by
  have h := outcome_run (outcome_pollAll answers) (fun _ tasks _ => mem_lookupsAll_seeAll tasks)
    (fun _ _ tasks h => seeAll_seeAll h tasks) [] rounds tasks
  rwa [List.nil_append] at h

/-! ### From the start to the end -/

mutual

/-- A task starts with the lookups of all of its words. -/
theorem mem_lookups_start {place : Nat} : ∀ (d : Derivation) (first : Nat),
    place ∈ (start d first).lookups ↔ first ≤ place ∧ place < first + d.keys.length
  | .word category, first => by
    rw [start, lookups, List.mem_singleton, Derivation.keys_word, List.length_singleton]
    omega
  | .literal text, first => by
    rw [start, lookups, Derivation.keys_literal, List.length_nil]
    simp
  | .rule name index parts, first => by
    rw [start, lookups, Derivation.keys_rule, mem_lookupsAll_startAll parts first]

theorem mem_lookupsAll_startAll {place : Nat} : ∀ (parts : List Derivation) (first : Nat),
    place ∈ lookupsAll (startAll parts first) ↔
      first ≤ place ∧ place < first + (parts.flatMap Derivation.keys).length
  | [], first => by
    rw [startAll, lookupsAll]
    simp
  | part :: parts, first => by
    rw [startAll, lookupsAll, List.mem_append, mem_lookups_start part,
      mem_lookupsAll_startAll parts, List.flatMap_cons, List.length_append]
    omega

end

variable {places : List Nat}

mutual

/-- With all of its words in place a task is done, with the text that is told if the answers are
given one after the other. -/
theorem exists_see_start : ∀ (d : Derivation) (first : Nat),
    (∀ place, first ≤ place → place < first + d.keys.length →
      ∃ word, words answers places place = some word) →
    ∃ text, d.tell (Replies.mk answers first) =
        (.ok text, Replies.mk answers (first + d.keys.length)) ∧
      (start d first).see (words answers places) = .done text
  | .word category, first, h => by
    obtain ⟨word, hword⟩ := h first (Nat.le_refl _) (by simp [Derivation.keys_word])
    have hdraw : WordStore.randomMember category.key (Replies.mk answers first) =
        (.ok word, Replies.mk answers (first + 1)) := by
      simp [WordStore.randomMember, (words_eq_some_iff.mp hword).2]
    refine ⟨word.getD category.placeholder, ?_, ?_⟩
    · rw [Derivation.tell, drawWord_eq_map, Asking.map_of_ok _ hdraw, Derivation.keys_word,
        List.length_singleton]
    · rw [start, see, hword, answered]
  | .literal text, first, _ => ⟨text, rfl, rfl⟩
  | .rule name index parts, first, h => by
    rw [Derivation.keys_rule] at h ⊢
    obtain ⟨texts, htold, hseen⟩ := exists_seeAll_startAll parts first h
    refine ⟨" ".intercalate texts, ?_, ?_⟩
    · rw [Derivation.tell, Asking.bind_of_ok _ htold]
      rfl
    · rw [start, see, hseen, settle_map_done]

theorem exists_seeAll_startAll : ∀ (parts : List Derivation) (first : Nat),
    (∀ place, first ≤ place → place < first + (parts.flatMap Derivation.keys).length →
      ∃ word, words answers places place = some word) →
    ∃ texts, Derivation.tellAll parts (Replies.mk answers first) =
        (.ok texts, Replies.mk answers (first + (parts.flatMap Derivation.keys).length)) ∧
      seeAll (words answers places) (startAll parts first) = texts.map .done
  | [], first, _ => ⟨[], rfl, rfl⟩
  | part :: parts, first, h => by
    rw [List.flatMap_cons, List.length_append] at h ⊢
    obtain ⟨text, htold, hseen⟩ := exists_see_start part first fun place hfirst hlast =>
      h place hfirst (by omega)
    obtain ⟨texts, htoldAll, hseenAll⟩ := exists_seeAll_startAll parts (first + part.keys.length)
      fun place hfirst hlast => h place (by omega) (by omega)
    refine ⟨text :: texts, ?_, ?_⟩
    · rw [Derivation.tellAll, Asking.bind_of_ok _ htold, Asking.bind_of_ok _ htoldAll,
        Nat.add_assoc]
      rfl
    · rw [startAll, seeAll, hseen, hseenAll, List.map_cons]

end

end Task

/-! ### Expansions and batches in rounds -/

/-- Expands a symbol while its lookups are answered in rounds. The result is none if there are
lookups that the rounds leave unanswered. -/
def Grammar.expandInRounds {γ : Type} [ChoiceSource γ] (g : Grammar) (s : Symbol) (source : γ)
    (answers : Nat → Answer) (rounds : List (List Nat)) : Except StoreError (Option String) :=
  Task.text? <$> Task.run (fun places => Task.poll (Task.arrived answers places)) [] rounds
    (Task.start (g.derive s source) 0)

namespace SentenceService

variable {γ : Type} [ChoiceSource γ]

/-- The derivation that the sentence of a batch at some index is told from. -/
def derivation (service : SentenceService) (sources : Nat → γ) (index : Nat) : Derivation :=
  match service.seed with
  | some seed => service.grammar.seededDerivation (seed + UInt64.ofNat index * seedStride)
  | none => service.grammar.derive service.grammar.startSymbol (sources index)

/-- The derivations of a batch, in the order of their indices. -/
def derivations (service : SentenceService) (sources : Nat → γ) (count : SentenceCount) :
    List Derivation :=
  (List.range count.value).map (service.derivation sources)

/-- Generates a batch while its lookups, those of all sentences, are answered in rounds. The result
is none if there are lookups that the rounds leave unanswered. -/
def generateInRounds (service : SentenceService) (sources : Nat → γ) (count : SentenceCount)
    (answers : Nat → Answer) (rounds : List (List Nat)) :
    Except StoreError (Option (List String)) :=
  (fun tasks => (Task.texts? tasks).map (List.map finishSentence)) <$>
    Task.run (fun places => Task.pollAll (Task.arrived answers places)) [] rounds
      (Task.startAll (service.derivations sources count) 0)

variable {σ : Type} [WordStore σ]

theorem sentence_eq_map_tell (service : SentenceService) (sources : Nat → γ) (index : Nat) :
    service.sentence sources index =
      (finishSentence <$> (service.derivation sources index).tell : Asking σ String) := by
  rw [sentence, derivation]
  cases service.seed with
  | some seed => exact Grammar.generateSeeded_eq_map_tell ..
  | none => simp only [Grammar.generate, Grammar.expandSymbol, map_eq_pure_bind]

/-- A batch is told from its derivations, one after the other. -/
theorem generateMany_eq_map_tellAll (service : SentenceService) (sources : Nat → γ)
    (count : SentenceCount) :
    service.generateMany sources count =
      (List.map finishSentence <$> Derivation.tellAll (service.derivations sources count) :
        Asking σ (List String)) := by
  rw [generateMany, derivations]
  induction List.range count.value with
  | nil => rfl
  | cons index indices ih =>
    rw [List.mapM_cons, ih, sentence_eq_map_tell, List.map_cons, Derivation.tellAll]
    simp

end SentenceService

/-- `CompletesAlike answers count inOrder run`: something that waits for a number of lookups has the
same result in whatever rounds they are answered. -/
structure CompletesAlike {α : Type} (answers : Nat → Answer) (count : Nat)
    (inOrder : Except StoreError α) (run : List (List Nat) → Except StoreError (Option α)) :
    Prop where
  /-- Without a failure, the result is that of answering from the first lookup to the last. -/
  of_ok : (∀ place < count, ∃ word, answers place = .ok word) →
    ∀ rounds : List (List Nat), (∀ place < count, place ∈ rounds.flatten) →
      ∃ result, inOrder = .ok result ∧ run rounds = .ok (some result)
  /-- Once a failure has arrived, the result is a failure that has arrived. -/
  of_error : ∀ (rounds : List (List Nat)), ∀ place < count, place ∈ rounds.flatten →
    ∀ cause, answers place = .error cause →
      ∃ other < count, other ∈ rounds.flatten ∧
        ∃ cause, answers other = .error cause ∧ run rounds = .error cause
  /-- There is no other result, and none before all answers have arrived. -/
  of_some : ∀ (rounds : List (List Nat)) (result : α), run rounds = .ok (some result) →
    (∀ place < count, place ∈ rounds.flatten) ∧ inOrder = .ok result

/-- What has its result exactly if all of its words are there, and then the one of answering in
order, completes alike. -/
theorem Task.Outcome.completesAlike {τ α : Type} {answers : Nat → Answer} {count : Nat}
    {inOrder : Except StoreError α} {run : List (List Nat) → Except StoreError τ}
    {lookups : List Nat} (seen : List Nat → τ) {result? : τ → Option α}
    (hrun : ∀ rounds, Outcome answers rounds.flatten lookups (seen rounds.flatten) (run rounds))
    (hlookups : ∀ place, place ∈ lookups ↔ place < count)
    (hseen : ∀ places, (∀ place < count, ∃ word, words answers places place = some word) →
      ∃ result, inOrder = .ok result ∧ result? (seen places) = some result)
    (hwhole : ∀ places result, result? (seen places) = some result →
      ∀ place < count, ∃ word, words answers places place = some word) :
    CompletesAlike answers count inOrder fun rounds => result? <$> run rounds := by
  constructor
  · intro hwords rounds harrived
    obtain ⟨result, hinOrder, hresult⟩ := hseen rounds.flatten fun place hplace => by
      obtain ⟨word, hword⟩ := hwords place hplace
      exact ⟨word, words_eq_some_iff.mpr ⟨harrived place hplace, hword⟩⟩
    have hrun := (hrun rounds).eq_ok fun place hlookup _ =>
      hwords place ((hlookups place).mp hlookup)
    exact ⟨result, hinOrder, by rw [hrun, ← hresult]; rfl⟩
  · intro rounds place hplace harrived cause hanswer
    obtain ⟨other, hother, hotherArrived, cause, hcause, hrun⟩ :=
      (hrun rounds).exists_eq_error ((hlookups place).mpr hplace) harrived hanswer
    exact ⟨other, (hlookups other).mp hother, hotherArrived, cause, hcause, by rw [hrun]; rfl⟩
  · intro rounds result hresult
    obtain ⟨task, htask, hresult⟩ : ∃ task, run rounds = .ok task ∧ result? task = some result := by
      cases htask : run rounds with
      | ok task => exact ⟨task, rfl, by simpa [htask, Functor.map, Except.map] using hresult⟩
      | error cause => simp [htask, Functor.map, Except.map] at hresult
    obtain rfl := (htask ▸ hrun rounds).eq_seen
    have hwords := hwhole _ _ hresult
    obtain ⟨other, hinOrder, hother⟩ := hseen _ hwords
    obtain rfl : other = result := Option.some_inj.mp (hother.symm.trans hresult)
    refine ⟨fun place hplace => ?_, hinOrder⟩
    obtain ⟨word, hword⟩ := hwords place hplace
    exact (words_eq_some_iff.mp hword).1

/-- A batch completes alike in whatever rounds the lookups of its sentences are answered. -/
theorem SentenceService.completesAlike_generateMany {γ : Type} [ChoiceSource γ]
    (service : SentenceService) (sources : Nat → γ) (count : SentenceCount)
    (answers : Nat → Answer) :
    CompletesAlike answers ((service.derivations sources count).flatMap Derivation.keys).length
      (service.generateMany sources count (Replies.mk answers 0)).1
      (service.generateInRounds sources count answers) := by
  rw [SentenceService.generateMany_eq_map_tellAll]
  refine Task.Outcome.completesAlike
    (fun places => Task.seeAll (Task.words answers places)
      (Task.startAll (service.derivations sources count) 0))
    (fun rounds => Task.outcome_run_pollAll ..) (fun place => ?_) (fun places hwords => ?_)
    fun places sentences hsentences place hplace => ?_
  · simp [Task.mem_lookupsAll_startAll]
  · obtain ⟨texts, htold, hseen⟩ :=
      Task.exists_seeAll_startAll (service.derivations sources count) 0
        fun place _ hplace => hwords place (by omega)
    refine ⟨texts.map finishSentence, by rw [Asking.map_of_ok _ htold], ?_⟩
    rw [hseen, Task.texts?_map_done, Option.map_some]
  · obtain ⟨texts, htexts, -⟩ := Option.map_eq_some_iff.mp hsentences
    refine Task.exists_word_of_seeAll (Task.texts?_eq_some_iff.mp htexts) ?_
    simpa [Task.mem_lookupsAll_startAll] using hplace

/-- **The order in which lookups are answered does not matter.** For every expansion and every
batch, and for all answers to their lookups: however the answers arrive, one by one or several
between two polls, the result is that of answering from left to right if no answer is a failure, and
otherwise a failure that some lookup was answered with; and there is no result before. -/
theorem completesAlike_expandSymbol_generateMany {γ : Type} [ChoiceSource γ] (g : Grammar)
    (s : Symbol) (source : γ) (service : SentenceService) (sources : Nat → γ)
    (count : SentenceCount) (answers : Nat → Answer) :
    CompletesAlike answers (g.derive s source).keys.length
      (g.expandSymbol s source (Replies.mk answers 0)).1 (g.expandInRounds s source answers) ∧
    CompletesAlike answers ((service.derivations sources count).flatMap Derivation.keys).length
      (service.generateMany sources count (Replies.mk answers 0)).1
      (service.generateInRounds sources count answers) := by
  refine ⟨?_, service.completesAlike_generateMany sources count answers⟩
  refine Task.Outcome.completesAlike
    (fun places => Task.see (Task.words answers places) (Task.start (g.derive s source) 0))
    (fun rounds => Task.outcome_run_poll ..) (fun place => ?_) (fun places hwords => ?_)
    fun places text htext place hplace => ?_
  · simp [Task.mem_lookups_start]
  · obtain ⟨text, htold, hseen⟩ := Task.exists_see_start (g.derive s source) 0
      fun place _ hplace => hwords place (by omega)
    exact ⟨text, by rw [Grammar.expandSymbol, htold], by rw [hseen, Task.text?]⟩
  · refine Task.exists_word_of_see (Task.text?_eq_some_iff.mp htext) ?_
    simpa [Task.mem_lookups_start] using hplace

/-- A sentence of the built-in grammar, with its lookups answered from the last to the first. -/
theorem Grammar.completesAlike_english :
    ∃ text,
      (english.expandSymbol english.startSymbol (NumberStream.ofSeed 7)
        (Replies.mk (fun place => .ok (some (toString place))) 0)).1 = .ok text ∧
      english.expandInRounds english.startSymbol (NumberStream.ofSeed 7)
        (fun place => .ok (some (toString place)))
        ((List.range (english.derive english.startSymbol
          (NumberStream.ofSeed 7)).keys.length).reverse.map fun place => [place]) =
          .ok (some text) := by
  have h := (completesAlike_expandSymbol_generateMany english english.startSymbol
    (NumberStream.ofSeed 7) ⟨english, some 7⟩ (fun _ => NumberStream.ofSeed 0)
    (SentenceCount.ofNat 2) fun place => .ok (some (toString place))).1
  refine h.of_ok (fun place _ => ⟨_, rfl⟩) _ fun place hplace => ?_
  simpa using hplace

example :
    Task.text? <$> Task.run
      (fun places => Task.poll (Task.arrived (fun place => .ok (some (toString place))) places)) []
      [[], [2], [], [0, 1]]
      (Task.start (.rule "S" 0 [.word .nouns, .rule "V" 1 [.word .verbs], .word .nouns]) 0) =
      .ok (some "0 1 2") := by
  rfl

end RandomSentences
