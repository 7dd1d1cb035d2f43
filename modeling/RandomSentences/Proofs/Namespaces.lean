import RandomSentences.Config.Basic
import RandomSentences.Store.Memory

/-!
# Word sets on a shared server

Several programs can keep their word sets on one server, each in its own configuration. The key of a
set is the category's, after the configuration's prefix and a colon if there is a prefix. A prefix
is any text and may hold colons itself, but no category's key does, so the key is cut at its last
colon: `StoreConfig.key_eq_key_iff` says that two keys are the same only for the same category and
the same prefix, where an empty prefix counts as none.

What that means for the sets is said of any server on which adding words to a set and removing a set
leave the other sets alone (`SetServer`). One command changes the set that it is about as if there
were no other sets (`Command.members_perform`), and by induction a history of commands leaves in a
set what the commands about this set make of it (`SetServer.members_run`).
-/

namespace RandomSentences

/-! ### Keys -/

section Separator

variable {α : Type} {sep : α} {before before' after after' gap : List α}

theorem eq_nil_of_cons_eq_append (h : sep ∉ after) (heq : sep :: after = gap ++ sep :: after') :
    gap = [] := by
  cases gap with
  | nil => rfl
  | cons c gap =>
    refine absurd ?_ h
    rw [(List.cons.inj heq).2]
    exact List.mem_append_right _ (List.mem_cons_self ..)

/-- A list is cut in one way only at the last place where it has a separator. -/
theorem append_cons_inj_of_not_mem (h : sep ∉ after) (h' : sep ∉ after') :
    before ++ sep :: after = before' ++ sep :: after' ↔ before = before' ∧ after = after' := by
  constructor
  · intro heq
    rcases List.append_eq_append_iff.mp heq with ⟨gap, hbefore, hafter⟩ | ⟨gap, hbefore, hafter⟩
    · obtain rfl := eq_nil_of_cons_eq_append h hafter
      exact ⟨by rw [hbefore, List.append_nil], (List.cons.inj hafter).2⟩
    · obtain rfl := eq_nil_of_cons_eq_append h' hafter
      exact ⟨by rw [hbefore, List.append_nil], (List.cons.inj hafter).2.symm⟩
  · rintro ⟨rfl, rfl⟩
    rfl

end Separator

theorem Category.colon_not_mem_key (c : Category) : ':' ∉ c.key.toList := by
  cases c <;> decide

namespace StoreConfig

/-- The prefix of a configuration's keys, if it is not empty. -/
def space? (config : StoreConfig) : Option String :=
  nonempty? config.keyPrefix

theorem toList_key (config : StoreConfig) (name : String) :
    (config.key name).toList =
      match config.space? with
      | some start => start.toList ++ ':' :: name.toList
      | none => name.toList := by
  rw [key, space?]
  cases nonempty? config.keyPrefix with
  | some start => simp
  | none => rfl

/-- Keys of sets are the same only for the same category and the same prefix. -/
theorem key_eq_key_iff (config config' : StoreConfig) (c c' : Category) :
    config.key c.key = config'.key c'.key ↔ c = c' ∧ config.space? = config'.space? := by
  have hcolon := c.colon_not_mem_key
  have hcolon' := c'.colon_not_mem_key
  have hkey : c.key.toList = c'.key.toList ↔ c = c' := by
    rw [String.toList_inj]
    exact ⟨Category.key_injective, congrArg Category.key⟩
  rw [← String.toList_inj, toList_key, toList_key]
  cases config.space? with
  | some start =>
    cases config'.space? with
    | some start' =>
      simp only [append_cons_inj_of_not_mem hcolon hcolon', hkey, String.toList_inj,
        Option.some.injEq, and_comm]
    | none =>
      -- the key without a prefix would hold a colon
      have hne : start.toList ++ ':' :: c.key.toList ≠ c'.key.toList := fun heq =>
        hcolon' (heq ▸ List.mem_append_right _ (List.mem_cons_self ..))
      simp [hne]
  | none =>
    cases config'.space? with
    | some start' =>
      have hne : c.key.toList ≠ start'.toList ++ ':' :: c'.key.toList := fun heq =>
        hcolon (heq ▸ List.mem_append_right _ (List.mem_cons_self ..))
      simp [hne]
    | none => simp only [hkey, and_true]

end StoreConfig

/-! ### Commands -/

/-- A server that holds sets of words by key, where a set that was never made is empty. Adding words
to a set and removing a set leave all others alone. -/
structure SetServer (σ : Type) where
  members : σ → String → WordSet
  add : σ → String → List String → σ
  remove : σ → String → σ
  members_add : ∀ s key words other, members (add s key words) other =
    if key = other then (members s other).insertMany words else members s other
  members_remove : ∀ s key other, members (remove s key) other =
    if key = other then ∅ else members s other

namespace MemoryStore

/-- A store in memory, taken as a server. -/
def server : SetServer MemoryStore where
  members := members
  add := insert
  remove s key := { s with sets := s.sets.erase key }
  members_add s key words other := by
    by_cases h : key = other
    · subst h
      simp [members, insert, Std.ExtTreeMap.getD_insert_self]
    · simp [members, insert, Std.ExtTreeMap.getD_insert, h]
  members_remove s key other := by
    by_cases h : key = other
    · subst h
      simp [members, Std.ExtTreeMap.getD_erase_self]
    · simp [members, Std.ExtTreeMap.getD_erase, h]

end MemoryStore

/-- What may be done to a set. -/
inductive SetChange where
  | add (words : List String)
  | clear
  deriving DecidableEq, Repr

namespace SetChange

variable {σ : Type}

/-- What a change makes of a set. -/
def apply : SetChange → WordSet → WordSet
  | add words, set => set.insertMany words
  | clear, _ => ∅

/-- Makes a change on a server. Where there are no words to add, nothing is sent. -/
def send (server : SetServer σ) (key : String) : SetChange → σ → σ
  | add [], s => s
  | add (word :: words), s => server.add s key (word :: words)
  | clear, s => server.remove s key

theorem members_send (server : SetServer σ) (key other : String) (change : SetChange) (s : σ) :
    server.members (change.send server key s) other =
      if key = other then change.apply (server.members s other) else server.members s other := by
  cases change with
  | add words =>
    cases words with
    | nil => simp [send, apply]
    | cons word words => rw [send, apply, server.members_add]
  | clear => rw [send, apply, server.members_remove]

end SetChange

/-- A change to the set of a category, made by a program with a configuration. -/
structure Command where
  config : StoreConfig
  category : Category
  change : SetChange

namespace Command

variable {σ : Type}

/-- A command is about a set if it has the same category and the same prefix. -/
def IsAbout (config : StoreConfig) (category : Category) (command : Command) : Prop :=
  command.category = category ∧ command.config.space? = config.space?

instance (config : StoreConfig) (category : Category) (command : Command) :
    Decidable (command.IsAbout config category) :=
  inferInstanceAs (Decidable (_ ∧ _))

/-- Makes the change of a command. -/
def perform (server : SetServer σ) (command : Command) (s : σ) : σ :=
  command.change.send server (command.config.key command.category.key) s

/-- A command changes the set that it is about, and no other. -/
theorem members_perform (server : SetServer σ) (config : StoreConfig) (category : Category)
    (command : Command) (s : σ) :
    server.members (command.perform server s) (config.key category.key) =
      if command.IsAbout config category then
        command.change.apply (server.members s (config.key category.key))
      else
        server.members s (config.key category.key) := by
  rw [perform, SetChange.members_send]
  have hkey := StoreConfig.key_eq_key_iff command.config config command.category category
  by_cases h : command.IsAbout config category
  · rw [if_pos h, if_pos (hkey.mpr h)]
  · rw [if_neg h, if_neg fun heq => h (hkey.mp heq)]

end Command

namespace SetServer

variable {σ : Type}

/-- The server after some commands. -/
def run (server : SetServer σ) (commands : List Command) (s : σ) : σ :=
  commands.foldl (fun s command => command.perform server s) s

/-- A set after some commands is what the commands about it have made of it. -/
theorem members_run (server : SetServer σ) (config : StoreConfig) (category : Category)
    (commands : List Command) (s : σ) :
    server.members (server.run commands s) (config.key category.key) =
      (commands.filter fun command => command.IsAbout config category).foldl
        (fun set command => command.change.apply set)
        (server.members s (config.key category.key)) := by
  induction commands generalizing s with
  | nil => rfl
  | cons command commands ih =>
    have hrun : server.run (command :: commands) s =
        server.run commands (command.perform server s) := rfl
    rw [hrun, ih, Command.members_perform, List.filter_cons]
    by_cases h : command.IsAbout config category <;> simp [h]

end SetServer

/-- Keys never collide, so sets of different categories or with different prefixes are kept apart on
any server: a set depends on no commands but those about it. -/
theorem SetServer.keeps_apart :
    (∀ (config config' : StoreConfig) (c c' : Category),
      config.key c.key = config'.key c'.key ↔ c = c' ∧ config.space? = config'.space?) ∧
    (∀ (σ : Type) (server : SetServer σ) (config : StoreConfig) (category : Category)
      (commands : List Command) (s : σ),
      server.members (server.run commands s) (config.key category.key) =
        (commands.filter fun command => command.IsAbout config category).foldl
          (fun set command => command.change.apply set)
          (server.members s (config.key category.key))) ∧
    (∀ (σ : Type) (server : SetServer σ) (config : StoreConfig) (category : Category)
      (commands : List Command) (s : σ),
      (∀ command ∈ commands, command.category = category →
        command.config.space? ≠ config.space?) →
      server.members (server.run commands s) (config.key category.key) =
        server.members s (config.key category.key)) := by
  refine ⟨fun config config' c c' => StoreConfig.key_eq_key_iff config config' c c',
    fun σ server config category commands s => server.members_run config category commands s, ?_⟩
  intro σ server config category commands s h
  have hnone : (commands.filter fun command => command.IsAbout config category) = [] := by
    rw [List.filter_eq_nil_iff]
    intro command hcommand habout
    have hand := of_decide_eq_true habout
    exact h command hcommand hand.1 hand.2
  rw [server.members_run, hnone]
  rfl

theorem SetServer.keeps_apart_bakery :
    let bakery : StoreConfig := { StoreConfig.default with keyPrefix := some "bakery:nouns" }
    let cellar : StoreConfig := { StoreConfig.default with keyPrefix := some "bakery" }
    let commands : List Command :=
      [⟨bakery, .nouns, .add ["loaf"]⟩, ⟨cellar, .verbs, .add ["pour"]⟩, ⟨bakery, .verbs, .clear⟩]
    let store := MemoryStore.server.run commands (.seeded 1)
    bakery.key Category.verbs.key ≠ cellar.key Category.nouns.key ∧
      store.members (cellar.key Category.verbs.key) = Std.ExtTreeSet.insertMany ∅ ["pour"] ∧
      store.members (cellar.key Category.nouns.key) = ∅ := by
  intro bakery cellar commands store
  obtain ⟨hkeys, hruns, hothers⟩ := SetServer.keeps_apart
  have hempty : ∀ key, (MemoryStore.seeded 1).members key = ∅ := fun key => by
    simp [MemoryStore.seeded, MemoryStore.empty, MemoryStore.members]
  refine ⟨fun heq => ?_, ?_, ?_⟩
  · exact absurd ((hkeys bakery cellar .verbs .nouns).mp heq).1 (by decide)
  · refine (hruns MemoryStore MemoryStore.server cellar .verbs commands (.seeded 1)).trans ?_
    have habout : (commands.filter fun command => command.IsAbout cellar .verbs) =
        [⟨cellar, .verbs, .add ["pour"]⟩] := rfl
    rw [habout]
    exact congrArg (Std.ExtTreeSet.insertMany · ["pour"]) (hempty (cellar.key "verbs"))
  · refine (hothers MemoryStore MemoryStore.server cellar .nouns commands (.seeded 1) ?_).trans
      (hempty (cellar.key "nouns"))
    decide

end RandomSentences
