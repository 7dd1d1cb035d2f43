import RandomSentences.Proofs.Telling

/-!
# Expansions under way

Telling a derivation draws its words one after the other. An expansion need not wait like this: it
can send off the lookups of all of its words at once and put the text together as the answers come
in, in whatever order. A `Task` is such an expansion under way. It has the shape of the derivation:
a lookup that was not answered yet, a text that is done, or a join, which waits for all of its parts
and then joins their texts in order.

`Task.poll` carries a task as far as it can go. Every lookup is asked for its answer, from left to
right; one without an answer is left as it is, and one that fails ends the whole at once. How a
lookup is asked is a parameter, in any monad, so that the same tasks run over a store that answers
at once and over answers that arrive by and by.

Over a store that answers at once, a single poll tells the derivation (`poll_start`): what is asked
of the store, and what comes of it, is as if the words had been drawn one after the other.
-/

namespace RandomSentences

/-- An expansion under way. -/
inductive Task where
  /-- Waits for a word of a category. The lookups of an expansion are numbered by their places. -/
  | lookup (place : Nat) (category : Category)
  /-- Has its text. -/
  | done (text : String)
  /-- Waits for all of its parts. -/
  | join (parts : List Task)
  deriving Repr

namespace Task

/-! ### Starting and polling -/

mutual

/-- The task of expanding a derivation. Its lookups are numbered from left to right, from some place
on. -/
def start : Derivation → (place : Nat) → Task
  | .word category, place => .lookup place category
  | .literal text, _ => .done text
  | .rule _ _ parts, place => .join (startAll parts place)

/-- The tasks of expanding some derivations, with their lookups numbered on from each to the
next. -/
def startAll : List Derivation → (place : Nat) → List Task
  | [], _ => []
  | part :: parts, place => start part place :: startAll parts (place + part.keys.length)

end

/-- The text of a task that is done. -/
def text? : Task → Option String
  | .done text => some text
  | _ => none

/-- The texts of some tasks, if all of them are done. -/
def texts? : List Task → Option (List String)
  | [] => some []
  | task :: tasks => task.text?.bind fun text => (texts? tasks).map (text :: ·)

/-- A join of some parts, which is done if all of them are. -/
def settle (parts : List Task) : Task :=
  match texts? parts with
  | some texts => .done (" ".intercalate texts)
  | none => .join parts

/-- A lookup at which an answer arrived or not. Where no word was found, the placeholder of the
category stands. -/
def answered (place : Nat) (category : Category) : Option (Option String) → Task
  | some word => .done (word.getD category.placeholder)
  | none => .lookup place category

section Poll

variable {m : Type → Type} [Monad m] (ask : Nat → Category → m (Option (Option String)))

mutual

/-- Carries a task as far as it can go, asking each of its lookups. -/
def poll : Task → m Task
  | .lookup place category => answered place category <$> ask place category
  | .done text => pure (.done text)
  | .join parts => settle <$> pollAll parts

/-- Carries some tasks as far as they can go, from the first to the last. -/
def pollAll : List Task → m (List Task)
  | [] => pure []
  | task :: tasks => do
    let task ← poll task
    let tasks ← pollAll tasks
    return task :: tasks

end

end Poll

theorem text?_eq_some_iff {task : Task} {text : String} :
    task.text? = some text ↔ task = .done text := by
  cases task <;> simp [text?]

theorem texts?_map_done (texts : List String) : texts? (texts.map .done) = some texts := by
  induction texts with
  | nil => rfl
  | cons text texts ih =>
    rw [List.map_cons, texts?, ih]
    rfl

/-- All of some tasks are done exactly if they are nothing but texts. -/
theorem texts?_eq_some_iff {tasks : List Task} {texts : List String} :
    texts? tasks = some texts ↔ tasks = texts.map .done := by
  refine ⟨fun h => ?_, fun h => h ▸ texts?_map_done texts⟩
  induction tasks generalizing texts with
  | nil =>
    obtain rfl : [] = texts := by simpa [texts?] using h
    rfl
  | cons task tasks ih =>
    cases task with
    | done text =>
      rw [texts?, text?, Option.bind_some] at h
      obtain ⟨others, hothers, rfl⟩ := Option.map_eq_some_iff.mp h
      rw [List.map_cons, ← ih hothers]
    | lookup place category => simp [texts?, text?] at h
    | join parts => simp [texts?, text?] at h

theorem settle_map_done (texts : List String) :
    settle (texts.map .done) = .done (" ".intercalate texts) := by
  rw [settle, texts?_map_done]

/-! ### What is left of a task -/

mutual

/-- The places of the lookups that a task waits for. -/
def lookups : Task → List Nat
  | .lookup place _ => [place]
  | .done _ => []
  | .join parts => lookupsAll parts

/-- The places of the lookups that some tasks wait for. -/
def lookupsAll : List Task → List Nat
  | [] => []
  | task :: tasks => lookups task ++ lookupsAll tasks

end

mutual

/-- A task with the words in place that are known. -/
def see (words : Nat → Option (Option String)) : Task → Task
  | .lookup place category => answered place category (words place)
  | .done text => .done text
  | .join parts => settle (seeAll words parts)

/-- Some tasks with the words in place that are known. -/
def seeAll (words : Nat → Option (Option String)) : List Task → List Task
  | [] => []
  | task :: tasks => see words task :: seeAll words tasks

end

theorem lookupsAll_map_done (texts : List String) : lookupsAll (texts.map .done) = [] := by
  induction texts with
  | nil => rfl
  | cons text texts ih => rw [List.map_cons, lookupsAll, ih, lookups, List.append_nil]

theorem seeAll_map_done (words : Nat → Option (Option String)) (texts : List String) :
    seeAll words (texts.map .done) = texts.map .done := by
  induction texts with
  | nil => rfl
  | cons text texts ih => rw [List.map_cons, seeAll, ih, see]

/-- A join that is done waits for nothing, as its parts do. -/
theorem lookups_settle (parts : List Task) : (settle parts).lookups = lookupsAll parts := by
  rw [settle]
  split
  · rename_i texts htexts
    rw [texts?_eq_some_iff.mp htexts, lookupsAll_map_done, lookups]
  · rw [lookups]

/-- It does not matter whether a join is settled before words are put in place. -/
theorem see_settle (words : Nat → Option (Option String)) (parts : List Task) :
    see words (settle parts) = settle (seeAll words parts) := by
  rw [settle]
  split
  · rename_i texts htexts
    rw [texts?_eq_some_iff.mp htexts, seeAll_map_done, settle_map_done, see]
  · rw [see]

variable {words more : Nat → Option (Option String)}

mutual

/-- A task goes on waiting for the words that are not known. -/
theorem mem_lookups_see {place : Nat} :
    ∀ task, place ∈ (see words task).lookups ↔ place ∈ task.lookups ∧ words place = none
  | .lookup other category => by
    rw [see]
    cases hword : words other with
    | some word =>
      simp only [answered, lookups, List.mem_singleton, List.not_mem_nil, false_iff]
      rintro ⟨rfl, hnone⟩
      simp [hnone] at hword
    | none =>
      simp only [answered, lookups, List.mem_singleton]
      exact ⟨fun h => ⟨h, h ▸ hword⟩, And.left⟩
  | .done text => by simp [see, lookups]
  | .join parts => by rw [see, lookups_settle, lookups, mem_lookupsAll_seeAll parts]

theorem mem_lookupsAll_seeAll {place : Nat} :
    ∀ tasks, place ∈ lookupsAll (seeAll words tasks) ↔
      place ∈ lookupsAll tasks ∧ words place = none
  | [] => by simp [seeAll, lookupsAll]
  | task :: tasks => by
    rw [seeAll, lookupsAll, List.mem_append, mem_lookups_see task, mem_lookupsAll_seeAll tasks,
      lookupsAll, List.mem_append, or_and_right]

end

/-- A task that is done once words are in place waited for none but these. -/
theorem exists_word_of_see {task : Task} {text : String} (h : see words task = .done text)
    {place : Nat} (hplace : place ∈ task.lookups) : ∃ word, words place = some word := by
  refine Option.ne_none_iff_exists'.mp fun hnone => ?_
  have hwaits := (mem_lookups_see task).mpr ⟨hplace, hnone⟩
  rw [h, lookups] at hwaits
  exact List.not_mem_nil hwaits

theorem exists_word_of_seeAll {tasks : List Task} {texts : List String}
    (h : seeAll words tasks = texts.map .done) {place : Nat} (hplace : place ∈ lookupsAll tasks) :
    ∃ word, words place = some word := by
  refine Option.ne_none_iff_exists'.mp fun hnone => ?_
  have hwaits := (mem_lookupsAll_seeAll tasks).mpr ⟨hplace, hnone⟩
  rw [h, lookupsAll_map_done] at hwaits
  exact List.not_mem_nil hwaits

mutual

/-- Putting more words in place later is putting all of them in place at once. -/
theorem see_see (h : ∀ place word, words place = some word → more place = some word) :
    ∀ task, see more (see words task) = see more task
  | .lookup place category => by
    rw [see]
    cases hword : words place with
    | some word => rw [answered, see, see, h place word hword, answered]
    | none => rw [answered]
  | .done text => rfl
  | .join parts => by rw [see, see_settle, seeAll_seeAll h parts, see]

theorem seeAll_seeAll (h : ∀ place word, words place = some word → more place = some word) :
    ∀ tasks, seeAll more (seeAll words tasks) = seeAll more tasks
  | [] => rfl
  | task :: tasks => by
    rw [seeAll, seeAll, see_see h task, seeAll_seeAll h tasks, seeAll]

end

/-! ### Stores that answer at once -/

section AtOnce

variable {σ : Type} [WordStore σ]

/-- Asks a store that answers every lookup at once. -/
def atOnce (_place : Nat) (category : Category) : Asking σ (Option (Option String)) :=
  some <$> WordStore.randomMember category.key

mutual

/-- Over a store that answers at once, one poll tells a derivation. -/
theorem poll_start : ∀ (d : Derivation) (place : Nat),
    poll (atOnce (σ := σ)) (start d place) = .done <$> d.tell
  | .word category, place => by
    rw [start, poll, atOnce, Derivation.tell, drawWord_eq_map, Functor.map_map, Functor.map_map]
    rfl
  | .literal text, place => by
    rw [start, poll, Derivation.tell, map_pure]
  | .rule name index parts, place => by
    rw [start, poll, pollAll_startAll parts place, Derivation.tell]
    simp [settle_map_done]

/-- Over a store that answers at once, one poll tells some derivations, from the first to the
last. -/
theorem pollAll_startAll : ∀ (parts : List Derivation) (place : Nat),
    pollAll (atOnce (σ := σ)) (startAll parts place) =
      List.map .done <$> Derivation.tellAll parts
  | [], place => by
    rw [startAll, pollAll, Derivation.tellAll, map_pure, List.map_nil]
  | part :: parts, place => by
    rw [startAll, pollAll, poll_start part, pollAll_startAll parts, Derivation.tellAll]
    simp

end

end AtOnce

end Task

end RandomSentences
