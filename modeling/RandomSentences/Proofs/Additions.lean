import RandomSentences.Files.Tree
import RandomSentences.Proofs.Loading

/-!
# What a store in memory holds

A store in memory is made empty or from a directory of word lists, and from then on words are added
to it, by hand or from further directories, while it is asked for members of its sets. A `History`
is how a store came about, with all of this in order, and `History.additions` are the words that
were added on the way, each with its key. `History.store_holds_additions` says that these are all
there is to know: a set holds exactly the words that were added to its key, whatever the order in
which they came and however they were grouped, and whatever was asked in between.

One step adds to every set the words that it adds to the key of the set (`mem_members_perform`), and
so does a run, step by step (`mem_members_run`). A directory whose word lists cannot all be read
adds the words of those before the first that cannot.
-/

namespace RandomSentences

/-! ### Additions -/

/-- A word that is added to the set of a key: the key, and the word. -/
abbrev Addition := String × String

/-- The words of a list, each added to the same key. -/
def additionsTo (key : String) (words : List String) : List Addition :=
  words.map fun word => (key, word)

theorem mem_additionsTo_iff {key other word : String} {words : List String} :
    (other, word) ∈ additionsTo key words ↔ key = other ∧ word ∈ words := by
  simp only [additionsTo, List.mem_map, Prod.mk.injEq]
  constructor
  · rintro ⟨_, hword, rfl, rfl⟩
    exact ⟨rfl, hword⟩
  · rintro ⟨rfl, hword⟩
    exact ⟨word, hword, rfl, rfl⟩

namespace WordList

/-- Whether a file can be read. -/
def File.isReadable (file : File) : Bool :=
  file.words.isOk

/-- What a file adds, if it can be read. -/
def File.additions (file : File) : List Addition :=
  match file.words with
  | .ok words => additionsTo file.category.key words
  | .error _ => []

/-- What some files add when they are read up to the first that cannot be. -/
def additions (lists : List File) : List Addition :=
  (lists.takeWhile File.isReadable).flatMap File.additions

theorem additions_cons_of_ok {file : File} {lists : List File} {words : List String}
    (h : file.words = .ok words) :
    additions (file :: lists) = additionsTo file.category.key words ++ additions lists := by
  have hreadable : file.isReadable = true := by rw [File.isReadable, h]; rfl
  rw [additions, List.takeWhile_cons_of_pos hreadable, List.flatMap_cons, File.additions, h,
    additions]

theorem additions_cons_of_error {file : File} {lists : List File} {cause : FileError}
    (h : file.words = .error cause) : additions (file :: lists) = [] := by
  have hreadable : ¬ file.isReadable = true := by rw [File.isReadable, h]; exact Bool.false_ne_true
  rw [additions, List.takeWhile_cons_of_neg hreadable, List.flatMap_nil]

end WordList

/-- What the word lists of a directory add. -/
def Snapshot.additions (files : Snapshot) (directory : FilePath) : List Addition :=
  match wordListFiles files directory with
  | .ok lists => WordList.additions lists
  | .error _ => []

namespace MemoryStore

variable {s : MemoryStore} {files : Snapshot} {directory : FilePath} {key word : String}

theorem members_empty (source : NumberStream) (key : String) : (empty source).members key = ∅ := by
  simp [members, empty]

theorem mem_members_addFiles {lists : List WordList.File} :
    word ∈ (s.addFiles lists).2.members key ↔
      word ∈ s.members key ∨ (key, word) ∈ WordList.additions lists := by
  induction lists generalizing s with
  | nil => simp [addFiles, WordList.additions]
  | cons file lists ih =>
    cases h : file.words with
    -- the store changes with every file, so the induction is on the files for any store
    | ok words =>
      simp only [addFiles, h, ih, mem_members_insert, WordList.additions_cons_of_ok h,
        List.mem_append, mem_additionsTo_iff, or_assoc]
    | error cause => simp [addFiles, h, WordList.additions_cons_of_error h]

/-- A directory adds what its word lists add, whether all of them can be read or not. -/
theorem mem_members_extend :
    word ∈ (s.extend files directory).2.members key ↔
      word ∈ s.members key ∨ (key, word) ∈ files.additions directory := by
  unfold extend Snapshot.additions
  cases wordListFiles files directory with
  | error cause => simp
  | ok lists =>
    rw [← mem_members_addFiles]
    rcases h : s.addFiles lists with ⟨cause | ⟨⟩, after⟩ <;> simp [h]

/-- A store that is made from a directory holds what the directory adds. -/
theorem mem_members_of_load {source : NumberStream} (h : load files directory source = .ok s) :
    word ∈ s.members key ↔ (key, word) ∈ files.additions directory := by
  have hextend : word ∈ ((empty source).extend files directory).2.members key ↔
      word ∈ (empty source).members key ∨ (key, word) ∈ files.additions directory :=
    mem_members_extend
  unfold load at h
  rcases hresult : (empty source).extend files directory with ⟨cause | count, after⟩
  · simp [hresult] at h
  · obtain rfl : after = s := by simpa [hresult] using h
    simpa [hresult, members_empty] using hextend

/-! ### Questions -/

theorem draw_of_empty (h : s.members key = ∅) : s.draw key = (none, s) := by
  simp [draw, h]

theorem exists_draw_of_mem (h : word ∈ s.members key) :
    ∃ drawn ∈ s.members key, ∃ source, s.draw key = (some drawn, { s with source := source }) := by
  have hpos : 0 < (s.members key).toList.length :=
    List.length_pos_of_mem (Std.ExtTreeSet.mem_toList.mpr h)
  let choice := ChoiceSource.index s.source _ hpos
  refine ⟨(s.members key).toList[choice.1], ?_, choice.2, ?_⟩
  · exact Std.ExtTreeSet.mem_toList.mp (List.getElem_mem _)
  · rw [draw, dif_pos hpos]

/-- A draw from an empty set finds nothing, and any other draw some member; the sets stay. -/
theorem draw_of_members (s : MemoryStore) (key : String) :
    (s.draw key).2.sets = s.sets ∧ ((s.draw key).1 = none ↔ ∀ word, word ∉ s.members key) ∧
      ∀ word, (s.draw key).1 = some word → word ∈ s.members key := by
  by_cases hword : ∃ word, word ∈ s.members key
  · obtain ⟨word, hword⟩ := hword
    obtain ⟨drawn, hdrawn, source, hdraw⟩ := exists_draw_of_mem hword
    rw [hdraw]
    refine ⟨rfl, by simpa using ⟨word, hword⟩, fun other hother => ?_⟩
    exact Option.some.inj hother ▸ hdrawn
  · have hempty : s.members key = ∅ :=
      Std.ExtTreeSet.ext_mem fun word => by simpa using fun h => hword ⟨word, h⟩
    simp [draw_of_empty hempty, hempty]

theorem nodup_members (s : MemoryStore) (key : String) : (s.members key).toList.Nodup :=
  Std.ExtTreeSet.distinct_toList.imp fun hne heq => hne (by simp [heq])

/-! ### Histories -/

/-- What is done to a store or asked of it. -/
inductive Step where
  | insert (key : String) (words : List String)
  /-- The word lists of a directory are added, as the files are at that time. -/
  | extend (files : Snapshot) (directory : FilePath)
  | ask (question : Question)

namespace Step

/-- The store after a step. -/
def perform : Step → MemoryStore → MemoryStore
  | insert key words, s => s.insert key words
  | extend files directory, s => (s.extend files directory).2
  | ask (.all key), s => (WordStore.allMembers key s).2
  | ask (.random key), s => (WordStore.randomMember key s).2

/-- What a step adds. -/
def additions : Step → List Addition
  | insert key words => additionsTo key words
  | extend files directory => files.additions directory
  | ask _ => []

/-- A step puts what it adds to a key into the set of the key, and nothing else into any set. -/
theorem mem_members_perform (step : Step) :
    word ∈ (step.perform s).members key ↔ word ∈ s.members key ∨ (key, word) ∈ step.additions := by
  cases step with
  | insert other words => rw [perform, additions, mem_members_insert, mem_additionsTo_iff]
  | extend files directory => rw [perform, additions, mem_members_extend]
  | ask question =>
    cases question with
    | all other => simp [perform, additions, WordStore.allMembers]
    | random other =>
      have hsets : (perform (ask (.random other)) s).sets = s.sets := (draw_of_members s other).1
      simp [members, hsets, additions]

end Step

/-- The store after some steps. -/
def run (steps : List Step) (s : MemoryStore) : MemoryStore :=
  steps.foldl (fun s step => step.perform s) s

theorem mem_members_run {steps : List Step} :
    word ∈ (run steps s).members key ↔
      word ∈ s.members key ∨ (key, word) ∈ steps.flatMap Step.additions := by
  induction steps generalizing s with
  | nil => simp [run]
  | cons step steps ih =>
    have hrun : run (step :: steps) s = run steps (step.perform s) := rfl
    rw [hrun, ih, Step.mem_members_perform, List.flatMap_cons, List.mem_append, or_assoc]

/-- How a store is made. -/
inductive Origin where
  /-- Without words, drawing from any stream. -/
  | empty (source : NumberStream)
  | seeded (seed : UInt64)
  /-- With the words of a directory. -/
  | loaded (files : Snapshot) (directory : FilePath) (source : NumberStream)

namespace Origin

/-- The store as it is made, unless a directory cannot be loaded. -/
def store : Origin → Except FileError MemoryStore
  | empty source => .ok (.empty source)
  | seeded seed => .ok (.seeded seed)
  | loaded files directory source => load files directory source

/-- The words that a store is made with. -/
def additions : Origin → List Addition
  | empty _ => []
  | seeded _ => []
  | loaded files directory _ => files.additions directory

theorem mem_members_store {origin : Origin} (h : origin.store = .ok s) :
    word ∈ s.members key ↔ (key, word) ∈ origin.additions := by
  cases origin with
  | empty source =>
    obtain rfl := Except.ok.inj h
    simp [members_empty, additions]
  | seeded seed =>
    obtain rfl := Except.ok.inj h
    simp [MemoryStore.seeded, members_empty, additions]
  | loaded files directory source => exact mem_members_of_load h

end Origin

/-- How a store came about: how it was made, and all steps since then. -/
structure History where
  origin : Origin
  steps : List Step

namespace History

/-- The store at the end, unless it could not be made. -/
def store (history : History) : Except FileError MemoryStore :=
  history.origin.store.map (run history.steps)

/-- All words that were added, in order. -/
def additions (history : History) : List Addition :=
  history.origin.additions ++ history.steps.flatMap Step.additions

variable {history other : History} {t : MemoryStore}

/-- The invariant of every history. -/
theorem mem_members_store (h : history.store = .ok s) :
    word ∈ s.members key ↔ (key, word) ∈ history.additions := by
  unfold store at h
  cases hmade : history.origin.store with
  | error cause => simp [hmade, Except.map] at h
  | ok made =>
    obtain rfl : run history.steps made = s := by simpa [hmade, Except.map] using h
    rw [mem_members_run, Origin.mem_members_store hmade, additions, List.mem_append]

/-- A set is the same in two stores if the same words were added to its key. -/
theorem members_eq_of_additions (h : history.store = .ok s) (hother : other.store = .ok t)
    (hadditions : ∀ word, (key, word) ∈ history.additions ↔ (key, word) ∈ other.additions) :
    s.members key = t.members key := by
  refine Std.ExtTreeSet.ext_mem fun word => ?_
  rw [mem_members_store h, mem_members_store hother, hadditions]

/-- **A store in memory holds what was added to it.** However a store was made, and whatever was
added to it and asked of it since:

* Asked for all members of a set, it lists each word that was added to the key of the set, once and
  nothing else, and stays as it is.
* Asked for some member of a set, it finds none exactly if nothing was added to the key, and else
  one of the words that were; its sets stay as they are.
* Another store lists the same members of a set if the same words were added to its key, whatever
  else the two hold; so they list the same for all keys if the one's additions are the other's in
  another order. -/
theorem store_holds_additions (h : history.store = .ok s) :
    (∀ key, ∃ words, WordStore.allMembers key s = (.ok words, s) ∧ words.Nodup ∧
      ∀ word, word ∈ words ↔ (key, word) ∈ history.additions) ∧
    (∀ key, ∃ answer after, WordStore.randomMember key s = (.ok answer, after) ∧
      after.sets = s.sets ∧ (answer = none ↔ ∀ word, (key, word) ∉ history.additions) ∧
      ∀ word, answer = some word → (key, word) ∈ history.additions) ∧
    ∀ (other : History) (t : MemoryStore), other.store = .ok t →
      (∀ key, (∀ word, (key, word) ∈ history.additions ↔ (key, word) ∈ other.additions) →
        (WordStore.allMembers key s).1 = (WordStore.allMembers key t).1) ∧
      (history.additions.Perm other.additions →
        ∀ key, (WordStore.allMembers key s).1 = (WordStore.allMembers key t).1) := by
  have hmem (key word : String) : word ∈ s.members key ↔ (key, word) ∈ history.additions :=
    mem_members_store h
  refine ⟨fun key => ?_, fun key => ?_, fun other t hother => ?_⟩
  · refine ⟨(s.members key).toList, rfl, nodup_members s key, fun word => ?_⟩
    rw [Std.ExtTreeSet.mem_toList, hmem]
  · obtain ⟨hsets, hnone, hsome⟩ := draw_of_members s key
    refine ⟨(s.draw key).1, (s.draw key).2, rfl, hsets, ?_, fun word hword => ?_⟩
    · simpa only [hmem] using hnone
    · exact (hmem key word).mp (hsome word hword)
  · have halike : ∀ key,
        (∀ word, (key, word) ∈ history.additions ↔ (key, word) ∈ other.additions) →
          (WordStore.allMembers key s).1 = (WordStore.allMembers key t).1 := by
      intro key hadditions
      exact congrArg (Except.ok ·.toList) (members_eq_of_additions h hother hadditions)
    exact ⟨halike, fun hperm key => halike key fun word => hperm.mem_iff⟩

/-- A directory of two: in the den, the word list of the verbs is no text, and in the coop all can
be read. -/
def farm : Snapshot :=
  let list (name : String) (content : List UInt8) := (Utf8.encode name, FileNode.file content)
  Snapshot.ofTree (.directory [
    (Utf8.encode "den", .directory [
      list "verbs.txt" [0xFF],
      list "nouns.txt" (Utf8.encode "fox\n  hen\n")]),
    (Utf8.encode "coop", .directory [list "nouns.txt" (Utf8.encode "hen\n\nhen\nfox")])])

theorem wordListFiles_farm_den :
    wordListFiles farm (Utf8.encode "den") =
      .ok [⟨.nouns, Utf8.encode "nouns.txt", .file (Utf8.encode "fox\n  hen\n")⟩,
        ⟨.verbs, Utf8.encode "verbs.txt", .file [0xFF]⟩] := by
  have hentries : farm.readDirectory (Utf8.encode "den") =
      .ok [(Utf8.encode "verbs.txt", .file [0xFF]),
        (Utf8.encode "nouns.txt", .file (Utf8.encode "fox\n  hen\n"))] := by
    decide +kernel
  exact WordList.wordListFiles_eq_of_pairwise hentries (by decide +kernel) (by decide +kernel)
    (by decide +kernel)

/-- The word list of the coop. -/
def coopNouns : WordList.File :=
  ⟨.nouns, Utf8.encode "nouns.txt", .file (Utf8.encode "hen\n\nhen\nfox")⟩

theorem words_coopNouns : coopNouns.words = .ok ["hen", "hen", "fox"] := by
  decide +kernel

theorem wordListFiles_farm_coop : wordListFiles farm (Utf8.encode "coop") = .ok [coopNouns] := by
  have hentries : farm.readDirectory (Utf8.encode "coop") =
      .ok [(Utf8.encode "nouns.txt", .file (Utf8.encode "hen\n\nhen\nfox"))] := by
    decide +kernel
  exact WordList.wordListFiles_eq_of_pairwise hentries (by decide +kernel) (by decide +kernel)
    (by decide +kernel)

theorem additions_farm_coop :
    farm.additions (Utf8.encode "coop") = additionsTo "nouns" ["hen", "hen", "fox"] := by
  rw [Snapshot.additions, wordListFiles_farm_coop]
  decide +kernel

theorem exists_load_farm_coop (source : NumberStream) :
    ∃ s, load farm (Utf8.encode "coop") source = .ok s := by
  simp only [load, extend, wordListFiles_farm_coop, addFiles, words_coopNouns, Except.ok.injEq,
    exists_eq']

/-- A hen is added by hand, and then what can be read in the den. -/
def raided : History :=
  ⟨.seeded 3, [.insert "nouns" ["hen"], .ask (.random "nouns"), .extend farm (Utf8.encode "den")]⟩

/-- All that is in the coop. -/
def asleep : History :=
  ⟨.loaded farm (Utf8.encode "coop") (NumberStream.ofSeed 5), [.ask (.all "verbs")]⟩

/-- The fox and the hen are in the den and in the coop, wherever they came from. -/
theorem store_holds_additions_farm :
    raided.additions = additionsTo "nouns" ["hen", "fox", "hen"] ∧
      raided.additions.Perm asleep.additions ∧
      ∃ s t, raided.store = .ok s ∧ asleep.store = .ok t ∧
        (∃ words, WordStore.allMembers "nouns" s = (.ok words, s) ∧ words.Nodup ∧
          ∀ word, word ∈ words ↔ ("nouns", word) ∈ raided.additions) ∧
        (∃ answer after, WordStore.randomMember "verbs" s = (.ok answer, after) ∧
          (answer = none ↔ ∀ word, ("verbs", word) ∉ raided.additions)) ∧
        (WordStore.allMembers "nouns" s).1 = (WordStore.allMembers "nouns" t).1 := by
  have hraided : raided.additions = additionsTo "nouns" ["hen", "fox", "hen"] := by
    have hden : farm.additions (Utf8.encode "den") = additionsTo "nouns" ["fox", "hen"] := by
      rw [Snapshot.additions, wordListFiles_farm_den]
      decide +kernel
    simp [additions, raided, Origin.additions, Step.additions, hden, additionsTo]
  have hasleep : asleep.additions = additionsTo "nouns" ["hen", "hen", "fox"] := by
    simp [additions, asleep, Origin.additions, Step.additions, additions_farm_coop]
  have hperm : raided.additions.Perm asleep.additions := by
    rw [hraided, hasleep]
    decide
  obtain ⟨t, ht⟩ : ∃ t, asleep.store = .ok t := by
    obtain ⟨made, hmade⟩ := exists_load_farm_coop (NumberStream.ofSeed 5)
    exact ⟨_, by rw [store, asleep, Origin.store, hmade]; rfl⟩
  have hs : raided.store = .ok (run raided.steps (.seeded 3)) := rfl
  obtain ⟨hall, hrandom, hother⟩ := store_holds_additions hs
  obtain ⟨answer, after, hdraw, -, hnone, -⟩ := hrandom "verbs"
  exact ⟨hraided, hperm, _, t, hs, ht, hall "nouns", ⟨answer, after, hdraw, hnone⟩,
    (hother asleep t ht).2 hperm "nouns"⟩

end History

end MemoryStore

end RandomSentences
