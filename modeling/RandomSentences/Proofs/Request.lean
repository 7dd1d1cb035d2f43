import RandomSentences.Proofs.Completion
import RandomSentences.Proofs.Unguarded
import RandomSentences.Store.Scripted

/-!
# Requests

A request asks for some number of sentences, and there are many ways for it to go wrong: the number
is no number, a store does not answer, a rule cannot be expanded. `SentenceService.respond_of_draws`
says that there are two outcomes only. A batch makes a fixed list of draws, `SentenceService.draws`.
If none of them fails, the response shows the batch, with as many sentences as were asked for; if
one fails, the response withholds everything, so that all failures look the same. Nothing but the
store decides which of the two it is: without any guard, a batch of a grammar never breaks.

`FailsAt` describes a draw that is the first to fail, as `Answers` describes draws that do not. Both
are cut where the draws of one sentence end and those of the next begin (`Answers.split`,
`FailsAt.split`), and by induction on its sentences a batch succeeds or fails as its draws do
(`tellAll_of_answers`, `tellAll_of_failsAt`).
-/

namespace RandomSentences

variable {σ : Type} [WordStore σ]

/-! ### Draws that fail -/

/-- `FailsAt store keys k cause after`: when a word is drawn from each of the keys in turn, the draw
at place `k` is the first to fail, and it leaves the store as `after`. -/
inductive FailsAt : σ → List String → Nat → StoreError → σ → Prop
  | head {store after : σ} {key : String} {keys : List String} {cause : StoreError}
      (hfail : WordStore.randomMember key store = (.error cause, after)) :
      FailsAt store (key :: keys) 0 cause after
  | tail {store between after : σ} {key : String} {keys : List String} {word : Option String}
      {k : Nat} {cause : StoreError}
      (hword : WordStore.randomMember key store = (.ok word, between))
      (hfails : FailsAt between keys k cause after) :
      FailsAt store (key :: keys) (k + 1) cause after

/-- Either no draw fails or some draw is the first to. -/
theorem answers_or_failsAt (store : σ) (keys : List String) :
    (∃ words after, Answers store keys words after) ∨
      ∃ k cause after, FailsAt store keys k cause after := by
  induction keys generalizing store with
  | nil => exact .inl ⟨[], store, .nil store⟩
  | cons key keys ih =>
    rcases hdraw : WordStore.randomMember key store with ⟨cause | word, between⟩
    · exact .inr ⟨0, cause, between, .head hdraw⟩
    · rcases ih between with ⟨words, after, h⟩ | ⟨k, cause, after, h⟩
      · exact .inl ⟨word :: words, after, .cons hdraw h⟩
      · exact .inr ⟨k + 1, cause, after, .tail hdraw h⟩

/-- Draws that do not fail can be stopped between any two of them. -/
theorem Answers.split {store after : σ} {keys others : List String} {words : List (Option String)}
    (h : Answers store (keys ++ others) words after) :
    ∃ between, Answers store keys (words.take keys.length) between ∧
      Answers between others (words.drop keys.length) after := by
  induction keys generalizing store words with
  | nil => exact ⟨store, .nil store, h⟩
  | cons key keys ih =>
    cases h with
    | cons hword hwords =>
      obtain ⟨between, hfirst, hrest⟩ := ih hwords
      exact ⟨between, .cons hword hfirst, hrest⟩

namespace FailsAt

variable {store after : σ} {keys others : List String} {k : Nat} {cause : StoreError}

/-- The first draw to fail comes among the first keys, or none of them fails before it. -/
theorem split (h : FailsAt store (keys ++ others) k cause after) :
    FailsAt store keys k cause after ∨ ∃ words between j,
      Answers store keys words between ∧ FailsAt between others j cause after := by
  induction keys generalizing store k with
  | nil => exact .inr ⟨[], store, k, .nil store, h⟩
  | cons key keys ih =>
    cases h with
    | head hfail => exact .inl (.head hfail)
    | tail hword hfails =>
      rcases ih hfails with hfirst | ⟨words, between, j, hfirst, hrest⟩
      · exact .inl (.tail hword hfirst)
      · exact .inr ⟨_, between, j, .cons hword hfirst, hrest⟩

theorem drawAll_eq (h : FailsAt store keys k cause after) :
    drawAll keys store = (.error cause, after) := by
  induction h with
  | head hfail => rw [drawAll_cons, Asking.bind_of_error _ hfail]
  | tail hword hfails ih =>
    rw [drawAll_cons, Asking.bind_of_ok _ hword, Asking.bind_of_error _ ih]

/-- Beside a log, the draws are recorded up to the one that fails. -/
theorem logged (h : FailsAt store keys k cause after) (asked : List Question) :
    FailsAt (Logged.mk store asked) keys k cause
      (Logged.afterDraws (keys.take (k + 1)) after asked) := by
  induction h generalizing asked with
  | head hfail => exact .head (Logged.randomMember_of_eq asked hfail)
  | tail hword hfails ih =>
    refine .tail (Logged.randomMember_of_eq asked hword) ?_
    simpa [Logged.afterDraws] using ih (_ :: asked)

end FailsAt

/-! ### Several derivations -/

namespace Derivation

/-- The texts of some derivations, given the answers to the draws of all their words. -/
def textAll : List Derivation → List (Option String) → List String
  | [], _ => []
  | part :: parts, answers =>
    part.text (answers.take part.keys.length) :: textAll parts (answers.drop part.keys.length)

theorem length_textAll (parts : List Derivation) (answers : List (Option String)) :
    (textAll parts answers).length = parts.length := by
  induction parts generalizing answers with
  | nil => rfl
  | cons part parts ih => rw [textAll, List.length_cons, List.length_cons, ih]

end Derivation

namespace Grammar

variable {g : Grammar} {parts : List Derivation} {store after : σ}

/-- If none of their draws fails, derivations are told one after the other. -/
theorem tellAll_of_answers (hparts : ∀ part ∈ parts, g.IsDerivation part)
    {words : List (Option String)} (h : Answers store (parts.flatMap Derivation.keys) words after) :
    Derivation.tellAll parts store = (.ok (Derivation.textAll parts words), after) := by
  induction parts generalizing store words with
  | nil =>
    cases h
    rfl
  | cons part parts ih =>
    -- the draws of the first derivation come before those of the others
    obtain ⟨between, hfirst, hrest⟩ := h.split
    have hpart := tell_of_answers (hparts part (List.mem_cons_self ..)) hfirst
    have hothers := ih (fun other hother => hparts other (List.mem_cons_of_mem _ hother)) hrest
    rw [Derivation.tellAll, Asking.bind_of_ok _ hpart, Asking.bind_of_ok _ hothers]
    rfl

/-- The first draw to fail ends the telling of derivations. -/
theorem tellAll_of_failsAt (hparts : ∀ part ∈ parts, g.IsDerivation part) {k : Nat}
    {cause : StoreError} (h : FailsAt store (parts.flatMap Derivation.keys) k cause after) :
    Derivation.tellAll parts store = (.error cause, after) := by
  induction parts generalizing store k with
  | nil => cases h
  | cons part parts ih =>
    have hpart := hparts part (List.mem_cons_self ..)
    rcases h.split with hfirst | ⟨words, between, j, hfirst, hrest⟩
    · have htell : part.tell store = (.error cause, after) := by
        rw [tell_eq_map_drawAll hpart]
        exact Asking.map_of_error _ hfirst.drawAll_eq
      rw [Derivation.tellAll, Asking.bind_of_error _ htell]
    · have hothers := ih (fun other hother => hparts other (List.mem_cons_of_mem _ hother)) hrest
      rw [Derivation.tellAll, Asking.bind_of_ok _ (tell_of_answers hpart hfirst),
        Asking.bind_of_error _ hothers]

end Grammar

namespace Grammar

variable {γ : Type} [ChoiceSource γ]

/-- Generates a sentence without a guard: the start symbol is expanded with at most as many rules
within each other as the grammar has, and breaks where it cannot go on. -/
def generateUnguarded (g : Grammar) (source : γ) : Unguarded σ String :=
  finishSentence <$> g.rules.expandWithin g.size g.startSymbol source

/-- Without a guard, a sentence does not break. -/
theorem generateUnguarded_eq_ask (g : Grammar) (source : γ) :
    (g.generateUnguarded source : Unguarded σ String) = Unguarded.ask (g.generate source) := by
  have hstart : g.Covers g.startSymbol := Resolves.covers (.inl rfl)
  have hdepth := depth_le_size (isDerivation_derive hstart source)
  rw [generateUnguarded, expandWithin_eq_ask hstart hdepth, ← Unguarded.ask_map, generate,
    expandSymbol, map_eq_pure_bind]

end Grammar

/-! ### Responses -/

namespace SentenceResponse

variable {response other : SentenceResponse}

/-- A response shows a number and sentences, and nothing else. -/
def Shows (response : SentenceResponse) (count : Nat) (sentences : List String) : Prop :=
  response = .ok ⟨count, sentences⟩ ∧ response.status = 200 ∧
    response.toJson = .ofMembers [("count", .number (.ofNat count)),
      ("sentences", .array (sentences.map .ofString))]

/-- A response withholds everything but that there was a failure. -/
def Withholds (response : SentenceResponse) : Prop :=
  response = .failed ⟨failureMessage⟩ ∧ response.status = 500 ∧
    response.toJson = .ofMembers [("error", .ofString failureMessage)]

theorem shows_ok (count : Nat) (sentences : List String) :
    (ok ⟨count, sentences⟩).Shows count sentences :=
  ⟨rfl, rfl, rfl⟩

theorem withholds_failed : (failed ⟨failureMessage⟩).Withholds :=
  ⟨rfl, rfl, rfl⟩

/-- Responses that withhold everything cannot be told apart. -/
theorem Withholds.eq (h : response.Withholds) (hother : other.Withholds) : response = other :=
  h.1.trans hother.1.symm

end SentenceResponse

namespace SentenceService

variable {γ : Type} [ChoiceSource γ] {service : SentenceService} {sources : Nat → γ}
  {count : SentenceCount} {raw : Option String} {store after : σ}

/-- The keys that the words of a batch are drawn from, sentence by sentence. -/
def draws (service : SentenceService) (sources : Nat → γ) (count : SentenceCount) : List String :=
  (service.derivations sources count).flatMap Derivation.keys

theorem isDerivation_of_mem {d : Derivation} (h : d ∈ service.derivations sources count) :
    service.grammar.IsDerivation d := by
  obtain ⟨index, -, rfl⟩ := List.mem_map.mp h
  have hstart : service.grammar.Covers service.grammar.startSymbol :=
    Grammar.Resolves.covers (.inl rfl)
  rw [derivation]
  split
  · exact Grammar.isDerivation_derive hstart _
  · exact Grammar.isDerivation_derive hstart _

/-! ### Batches by their draws -/

/-- If none of its draws fails, a batch has its sentences, as many as were asked for. -/
theorem generateMany_of_answers {words : List (Option String)}
    (h : Answers store (service.draws sources count) words after) :
    service.generateMany sources count store =
      (.ok ((Derivation.textAll (service.derivations sources count) words).map finishSentence),
        after) := by
  rw [generateMany_eq_map_tellAll]
  exact Asking.map_of_ok _ (Grammar.tellAll_of_answers (fun _ => isDerivation_of_mem) h)

/-- A batch fails with the cause of its first draw to fail. -/
theorem generateMany_of_failsAt {k : Nat} {cause : StoreError}
    (h : FailsAt store (service.draws sources count) k cause after) :
    service.generateMany sources count store = (.error cause, after) := by
  rw [generateMany_eq_map_tellAll]
  exact Asking.map_of_error _ (Grammar.tellAll_of_failsAt (fun _ => isDerivation_of_mem) h)

theorem length_map_textAll (words : List (Option String)) :
    ((Derivation.textAll (service.derivations sources count) words).map finishSentence).length =
      count.value := by
  rw [List.length_map, Derivation.length_textAll, derivations, List.length_map, List.length_range]

theorem respond_of_ok {sentences : List String}
    (h : service.generateMany sources (.parse raw) store = (.ok sentences, after)) :
    service.respond sources raw store =
      (.ok ⟨(SentenceCount.parse raw).value, sentences⟩, after) := by
  simp [respond, bind, StateT.bind, ExceptT.run, h]
  rfl

theorem respond_of_error {cause : StoreError}
    (h : service.generateMany sources (.parse raw) store = (.error cause, after)) :
    service.respond sources raw store = (.failed ⟨failureMessage⟩, after) := by
  simp [respond, bind, StateT.bind, ExceptT.run, h]
  rfl

/-! ### Batches without a guard -/

/-- Generates the sentence of a batch at some index without a guard. -/
def sentenceUnguarded (service : SentenceService) (sources : Nat → γ) (index : Nat) :
    Unguarded σ String :=
  match service.seed with
  | some seed =>
    service.grammar.generateUnguarded (NumberStream.ofSeed (seed + UInt64.ofNat index * seedStride))
  | none => service.grammar.generateUnguarded (sources index)

/-- Generates a batch without a guard. -/
def generateUnguarded (service : SentenceService) (sources : Nat → γ) (count : SentenceCount) :
    Unguarded σ (List String) :=
  (List.range count.value).mapM fun index => service.sentenceUnguarded sources index

/-- Without a guard, a batch does not break. -/
theorem generateUnguarded_eq_ask (service : SentenceService) (sources : Nat → γ)
    (count : SentenceCount) :
    (service.generateUnguarded sources count : Unguarded σ (List String)) =
      Unguarded.ask (service.generateMany sources count) := by
  have hsentence (index : Nat) : service.sentenceUnguarded sources index =
      Unguarded.ask (service.sentence sources index : Asking σ String) := by
    rw [sentenceUnguarded, sentence]
    cases service.seed with
    | some seed => exact Grammar.generateUnguarded_eq_ask ..
    | none => exact Grammar.generateUnguarded_eq_ask ..
  simp only [generateUnguarded, hsentence, Unguarded.mapM_ask, generateMany]

/-! ### Requests -/

/-- `service.Serves sources raw store sentences after`: the request gets the batch it asks for. The
response shows the sentences, which are as many as the number says, and nothing but their draws was
asked of the store. -/
structure Serves (service : SentenceService) (sources : Nat → γ) (raw : Option String) (store : σ)
    (sentences : List String) (after : σ) : Prop where
  generateMany_eq : service.generateMany sources (.parse raw) store = (.ok sentences, after)
  length_eq : sentences.length = (SentenceCount.parse raw).value
  shows : (service.respond sources raw store).1.Shows (SentenceCount.parse raw).value sentences
  store_eq : (service.respond sources raw store).2 = after
  history_eq : (service.respond sources raw (Logged.mk store [])).2.history =
    (service.draws sources (.parse raw)).map .random

/-- `service.Refuses sources raw store k cause after`: the request gets no batch. The response
withholds everything, its cause too, and nothing was asked of the store after the draw at place
`k`. -/
structure Refuses (service : SentenceService) (sources : Nat → γ) (raw : Option String) (store : σ)
    (k : Nat) (cause : StoreError) (after : σ) : Prop where
  generateMany_eq : service.generateMany sources (.parse raw) store = (.error cause, after)
  withholds : (service.respond sources raw store).1.Withholds
  store_eq : (service.respond sources raw store).2 = after
  history_eq : (service.respond sources raw (Logged.mk store [])).2.history =
    ((service.draws sources (.parse raw)).take (k + 1)).map .random

/-- If no draw of the batch fails, a request gets the batch. -/
theorem serves_of_answers {words : List (Option String)}
    (h : Answers store (service.draws sources (.parse raw)) words after) :
    ∃ sentences, service.Serves sources raw store sentences after := by
  have hbatch := generateMany_of_answers h
  -- the words fix the sentences, so beside a log they are the same
  have hlogged := generateMany_of_answers (Logged.answers h [])
  refine ⟨_, hbatch, length_map_textAll words, ?_, ?_, ?_⟩
  · rw [respond_of_ok hbatch]
    exact SentenceResponse.shows_ok ..
  · rw [respond_of_ok hbatch]
  · rw [respond_of_ok hlogged, Logged.history_afterDraws]

/-- If a draw of the batch fails, a request is refused. -/
theorem refuses_of_failsAt {k : Nat} {cause : StoreError}
    (h : FailsAt store (service.draws sources (.parse raw)) k cause after) :
    service.Refuses sources raw store k cause after := by
  have hbatch := generateMany_of_failsAt h
  have hlogged := generateMany_of_failsAt (h.logged [])
  refine ⟨hbatch, ?_, ?_, ?_⟩
  · rw [respond_of_error hbatch]
    exact SentenceResponse.withholds_failed
  · rw [respond_of_error hbatch]
  · rw [respond_of_error hlogged, Logged.history_afterDraws]

/-- Answers a request while the lookups of its batch are answered in rounds. There is no response
as long as there are lookups that the rounds leave unanswered. -/
def respondInRounds (service : SentenceService) (sources : Nat → γ) (raw : Option String)
    (answers : Nat → Answer) (rounds : List (List Nat)) : Option SentenceResponse :=
  match service.generateInRounds sources (.parse raw) answers rounds with
  | .ok none => none
  | .ok (some sentences) => some (.ok ⟨(SentenceCount.parse raw).value, sentences⟩)
  | .error _ => some (.failed ⟨failureMessage⟩)

variable {answers : Nat → Answer} {rounds : List (List Nat)}

/-- Without a failure, it does not matter in which rounds the lookups are answered. -/
theorem respondInRounds_of_ok
    (hwords : ∀ place < (service.draws sources (.parse raw)).length,
      ∃ word, answers place = .ok word)
    (harrived : ∀ place < (service.draws sources (.parse raw)).length, place ∈ rounds.flatten) :
    service.respondInRounds sources raw answers rounds =
      some (service.respond sources raw (Replies.mk answers 0)).1 := by
  obtain ⟨sentences, hinOrder, hrun⟩ :=
    (service.completesAlike_generateMany sources (.parse raw) answers).of_ok hwords rounds harrived
  have hbatch : service.generateMany sources (.parse raw) (Replies.mk answers 0) =
      (.ok sentences, (service.generateMany sources (.parse raw) (Replies.mk answers 0)).2) :=
    Prod.ext hinOrder rfl
  rw [respondInRounds, hrun, respond_of_ok hbatch]

/-- Once a failure has arrived, it does not matter which, and what else has. -/
theorem respondInRounds_of_error {place : Nat} {cause : StoreError}
    (hplace : place < (service.draws sources (.parse raw)).length)
    (harrived : place ∈ rounds.flatten) (hanswer : answers place = .error cause) :
    service.respondInRounds sources raw answers rounds = some (.failed ⟨failureMessage⟩) := by
  obtain ⟨-, -, -, other, -, hrun⟩ :=
    (service.completesAlike_generateMany sources (.parse raw) answers).of_error rounds place hplace
      harrived cause hanswer
  rw [respondInRounds, hrun]

/-- **A request has one of two outcomes.** Whatever a request says, and whatever the service and the
store:

* If no draw of the batch fails, the response has status 200 and shows the number of sentences and
  the sentences of the batch, which are as many.
* If a draw fails, the response has status 500 and shows a message, which is the same for every
  failure over every store, for every request and every service.
* There is no other outcome: either no draw fails or one is the first to, and without a guard, the
  batch comes to what it comes to with one, so that no rule of the grammar makes it fail.
* If the draws are answered in rounds, the response is that of answering them in order if none
  fails, and the one for failures if one has failed. -/
theorem respond_of_draws (service : SentenceService) (sources : Nat → γ) (raw : Option String)
    (store : σ) :
    (∀ words after, Answers store (service.draws sources (.parse raw)) words after →
      ∃ sentences, service.Serves sources raw store sentences after) ∧
    (∀ k cause after, FailsAt store (service.draws sources (.parse raw)) k cause after →
      service.Refuses sources raw store k cause after ∧
      ∀ {δ τ : Type} [ChoiceSource δ] [WordStore τ] (other : SentenceService)
        (otherSources : Nat → δ) (otherRaw : Option String) (otherStore : τ) j otherCause last,
        FailsAt otherStore (other.draws otherSources (.parse otherRaw)) j otherCause last →
        (other.respond otherSources otherRaw otherStore).1 =
          (service.respond sources raw store).1) ∧
    ((∃ words after, Answers store (service.draws sources (.parse raw)) words after) ∨
      ∃ k cause after, FailsAt store (service.draws sources (.parse raw)) k cause after) ∧
    service.generateUnguarded sources (.parse raw) store =
      .ok (service.generateMany sources (.parse raw) store) ∧
    ∀ (answers : Nat → Answer) (rounds : List (List Nat)),
      ((∀ place < (service.draws sources (.parse raw)).length,
          ∃ word, answers place = .ok word) →
        (∀ place < (service.draws sources (.parse raw)).length, place ∈ rounds.flatten) →
        service.respondInRounds sources raw answers rounds =
          some (service.respond sources raw (Replies.mk answers 0)).1) ∧
      ∀ place < (service.draws sources (.parse raw)).length, place ∈ rounds.flatten →
        ∀ cause, answers place = .error cause →
          service.respondInRounds sources raw answers rounds =
            some (.failed ⟨failureMessage⟩) := by
  refine ⟨fun words after => serves_of_answers, ?_, answers_or_failsAt store _, ?_, ?_⟩
  · intro k cause after h
    refine ⟨refuses_of_failsAt h, ?_⟩
    intro δ τ _ _ other otherSources otherRaw otherStore j otherCause last hother
    exact (refuses_of_failsAt hother).withholds.eq (refuses_of_failsAt h).withholds
  · exact congrFun (generateUnguarded_eq_ask service sources _) store
  · intro answers rounds
    refine ⟨respondInRounds_of_ok, fun place hplace harrived cause hanswer => ?_⟩
    exact respondInRounds_of_error hplace harrived hanswer

/-- A store that has one noun and fails the second question. -/
def hounds : ScriptedStore :=
  .ofScript ⟨[("nouns", ["hound"])], some 2, [], .unavailable "down"⟩

/-- Two sentences of a grammar without a choice are asked for. They are given if the store has no
words, and refused if it fails the second question, in the same way as another service refuses
another request over a store that fails at once. -/
theorem respond_of_draws_hounds :
    (SentenceCount.parse (some " 2 hounds")).value = 2 ∧
      ∃ g, Grammar.ofRules "S" [("S", ["the \x7bnouns\x7d"])] = .ok g ∧
        (∃ sentences, (SentenceService.mk g (some 7)).Serves (fun _ => NumberStream.ofSeed 0)
          (some " 2 hounds") (MemoryStore.seeded 3) sentences (MemoryStore.seeded 3)) ∧
        (∃ after, (SentenceService.mk g (some 7)).Refuses (fun _ => NumberStream.ofSeed 0)
          (some " 2 hounds") hounds 1 (.unavailable "down") after) ∧
        ((SentenceService.mk g none).respond (fun _ => NumberStream.ofSeed 3) none
            (Replies.mk (fun _ => .error (.file .notFound)) 0)).1 =
          ((SentenceService.mk g (some 7)).respond (fun _ => NumberStream.ofSeed 0)
            (some " 2 hounds") hounds).1 := by
  have hg : (Grammar.ofRules "S" [("S", ["the \x7bnouns\x7d"])]).isOk = true := by decide +kernel
  have hrule : (Grammar.resultOf _ hg).rules["S"]? = some [[.literal "the", .terminal .nouns]] := by
    decide +kernel +revert
  have hstart : (Grammar.resultOf _ hg).startSymbol = .nonterminal "S" := by
    decide +kernel +revert
  generalize hresult : Grammar.resultOf _ hg = g at hrule hstart
  have hkeys (source : NumberStream) : (g.derive g.startSymbol source).keys = ["nouns"] := by
    have hpick : ([[.literal "the", .terminal .nouns]] : List Alternative)[
        (ChoiceSource.pick source 1).1]? = some [.literal "the", .terminal .nouns] := by
      rw [Nat.lt_one_iff.mp (ChoiceSource.pick_lt source Nat.one_pos)]
      rfl
    rw [hstart, Grammar.derive_nonterminal_pick hrule hpick]
    simp [ChoiceSource.splits, Grammar.derive_literal, Grammar.derive_terminal,
      Derivation.keys_rule, Derivation.keys_word, Derivation.keys_literal, Category.key]
  have hcount : (SentenceCount.parse (some " 2 hounds")).value = 2 := by decide
  have hdraws : (SentenceService.mk g (some 7)).draws (fun _ => NumberStream.ofSeed 0)
      (.parse (some " 2 hounds")) = ["nouns", "nouns"] := by
    simp [draws, derivations, hcount, derivation, Grammar.seededDerivation, List.range_succ, hkeys]
  have hother : (SentenceService.mk g none).draws (fun _ => NumberStream.ofSeed 3)
      (.parse none) = ["nouns"] := by
    have hcount : (SentenceCount.parse none).value = 1 := rfl
    simp [draws, derivations, hcount, derivation, hkeys]
  obtain ⟨last, hsecond⟩ : ∃ last, FailsAt hounds ["nouns", "nouns"] 1 (.unavailable "down") last :=
    ⟨_, .tail rfl (.head rfl)⟩
  rw [← hdraws] at hsecond
  obtain ⟨between, hfirst⟩ : ∃ between, FailsAt (Replies.mk (fun _ => .error (.file .notFound)) 0)
      ["nouns"] 0 (.file .notFound) between :=
    ⟨_, .head rfl⟩
  rw [← hother] at hfirst
  obtain ⟨hserves, -⟩ := respond_of_draws (SentenceService.mk g (some 7))
    (fun _ => NumberStream.ofSeed 0) (some " 2 hounds") (MemoryStore.seeded 3)
  obtain ⟨hrefuses, hsame⟩ := (respond_of_draws (SentenceService.mk g (some 7))
    (fun _ => NumberStream.ofSeed 0) (some " 2 hounds") hounds).2.1 _ _ _ hsecond
  have hgiven := hserves _ _ (MemoryStore.answers_seeded 3 _)
  exact ⟨hcount, g, hresult ▸ Grammar.eq_ok_resultOf _ hg, hgiven, ⟨last, hrefuses⟩,
    hsame _ _ _ _ _ _ _ hfirst⟩

end SentenceService

end RandomSentences
