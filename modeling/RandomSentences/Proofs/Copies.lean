import Mathlib.Algebra.Ring.Nat
import Mathlib.Tactic.Tauto
import RandomSentences.Proofs.Additions
import RandomSentences.WordBank

/-!
# Copies of a word bank

A bank goes into a store category by category, each set under the key of its category, and out of
a store in the same way. On the way the store joins sets under one key, and no two categories have
the same key, so a set of the store holds the words that the bank has for the category
(`WordBank.members_toStore`). Out of it comes a bank with a set for every category
(`WordBank.snapshot_eq`), where the first one may have had none.

So a copy answers as the bank does, since a bank without a set answers like one with an empty set
(`WordBank.Agree`); but it is equal only to a bank with all sets. `WordBank.snapshot_toStore` says
both for every bank that is made by inserting sets.
-/

namespace RandomSentences

/-- The bank with all sets that a store in memory has for the categories. -/
def MemoryStore.bank (s : MemoryStore) : WordBank :=
  ⟨fun c => some (s.members c.key)⟩

namespace WordBank

/-! ### Inserting sets -/

/-- The bank that is made by inserting sets one after another. -/
def ofInserts (inserts : List (Category × WordSet)) : WordBank :=
  inserts.foldl (fun b put => b.insert put.1 put.2) empty

variable {a b : WordBank} {inserts : List (Category × WordSet)} {c : Category}

theorem entry?_insert (b : WordBank) (category c : Category) (words : WordSet) :
    entry? (b.insert category words) c = if c = category then some words else b.entry? c :=
  rfl

theorem entry?_foldl_insert (inserts : List (Category × WordSet)) (b : WordBank) (c : Category) :
    entry? (inserts.foldl (fun b put => b.insert put.1 put.2) b) c =
      (inserts.reverse.lookup c).or (b.entry? c) := by
  induction inserts generalizing b with
  | nil => rfl
  | cons put inserts ih =>
    obtain ⟨category, words⟩ := put
    rw [List.foldl_cons, ih, entry?_insert, List.reverse_cons, List.lookup_append, Option.or_assoc]
    by_cases hc : c = category
    · simp [hc]
    · simp [hc, List.lookup_cons, beq_false_of_ne hc]

/-- A bank has for a category the set that was inserted last. -/
theorem entry?_ofInserts (inserts : List (Category × WordSet)) (c : Category) :
    entry? (ofInserts inserts) c = inserts.reverse.lookup c := by
  rw [ofInserts, entry?_foldl_insert]
  exact Option.or_none

theorem exists_entry?_ofInserts_iff :
    (∃ words, entry? (ofInserts inserts) c = some words) ↔ ∃ words, (c, words) ∈ inserts := by
  rw [entry?_ofInserts]
  constructor
  · rintro ⟨words, hwords⟩
    obtain ⟨before, after, heq, -⟩ := List.lookup_eq_some_iff.mp hwords
    have hmem : (c, words) ∈ inserts.reverse := by simp [heq]
    exact ⟨words, List.mem_reverse.mp hmem⟩
  · rintro ⟨words, hmem⟩
    rw [← Option.isSome_iff_exists, List.lookup_isSome_iff]
    exact ⟨(c, words), List.mem_reverse.mpr hmem, beq_self_eq_true c⟩

/-! ### Into a store and out of it -/

theorem mem_members_foldl_insert (b : WordBank) (categories : List Category) (s : MemoryStore)
    (word : String) :
    word ∈ (categories.foldl (fun s c => s.insert c.key (b.words c).toList) s).members c.key ↔
      word ∈ s.members c.key ∨ c ∈ categories ∧ word ∈ b.words c := by
  induction categories generalizing s with
  | nil => simp
  | cons category categories ih =>
    rw [List.foldl_cons, ih, MemoryStore.mem_members_insert, Std.ExtTreeSet.mem_toList]
    by_cases hc : category = c
    · subst hc
      simp only [List.mem_cons, true_or, true_and]
      tauto
    · have hkey : category.key ≠ c.key := fun h => hc (Category.key_injective h)
      simp [hkey, Ne.symm hc]

/-- A store that is made of a bank holds for each category the words that the bank has for it. -/
theorem members_toStore (b : WordBank) (source : NumberStream) (c : Category) :
    (b.toStore source).members c.key = b.words c := by
  apply Std.ExtTreeSet.ext_mem
  intro word
  rw [toStore, mem_members_foldl_insert, MemoryStore.members_empty]
  simp [Category.mem_all]

theorem wordsInCategory_eq (c : Category) (s : MemoryStore) :
    wordsInCategory c s = (.ok (s.members c.key), s) := by
  have hset : Std.ExtTreeSet.ofList (s.members c.key).toList = s.members c.key :=
    Std.ExtTreeSet.ext_mem fun word => by simp
  have hmembers : (WordStore.allMembers c.key : Asking MemoryStore _) s =
      (.ok (s.members c.key).toList, s) := rfl
  rw [wordsInCategory, Asking.bind_of_ok _ hmembers, hset]
  rfl

theorem copyAll_eq (b : WordBank) (categories : List Category) (s : MemoryStore) :
    copyAll b categories s =
      (.ok ⟨fun c => if c ∈ categories then some (s.members c.key) else b.entry? c⟩, s) := by
  induction categories generalizing b with
  | nil =>
    simp only [List.not_mem_nil, if_false]
    rfl
  | cons category categories ih =>
    rw [copyAll, Asking.bind_of_ok _ (wordsInCategory_eq category s), ih]
    congr 3
    funext c
    by_cases hc : c = category
    · simp [hc, entry?_insert]
    · simp [hc, entry?_insert]

/-- A copy of a store in memory succeeds, leaves the store alone and has all its sets. -/
theorem snapshot_eq (s : MemoryStore) : snapshot s = (.ok s.bank, s) := by
  rw [snapshot, copyAll_eq]
  simp [Category.mem_all, MemoryStore.bank]

theorem entry?_bank_toStore (b : WordBank) (source : NumberStream) (c : Category) :
    entry? (b.toStore source).bank c = some (b.words c) :=
  congrArg some (members_toStore b source c)

/-! ### Answering alike and being equal -/

/-- Two banks answer every question about their words alike. -/
structure Agree (a b : WordBank) : Prop where
  words : ∀ c, a.words c = b.words c
  contains : ∀ c word, a.contains c word = b.contains c word
  size : ∀ c, a.size c = b.size c
  total : a.total = b.total
  emptyCategories : a.emptyCategories = b.emptyCategories

/-- The number of all words is the sum over all categories, whether they have a set or not. -/
theorem total_eq (b : WordBank) : b.total = (Category.all.map b.size).sum := by
  have hsum : ∀ categories : List Category,
      (categories.filterMap b.entry?).foldr (fun words n => words.size + n) 0 =
        (categories.map b.size).sum := by
    intro categories
    induction categories with
    | nil => rfl
    | cons c categories ih =>
      cases hentry : b.entry? c with
      | none => simp [hentry, ih, size, words]
      | some set => simp [hentry, ih, size, words]
  exact hsum Category.all

/-- Banks with the same words answer alike. -/
theorem Agree.of_words (h : ∀ c, a.words c = b.words c) : Agree a b := by
  have hsize : ∀ c, a.size c = b.size c := fun c => congrArg Std.ExtTreeSet.size (h c)
  refine ⟨h, fun c word => ?_, hsize, ?_, ?_⟩
  · rw [WordBank.contains, h, WordBank.contains]
  · rw [total_eq, total_eq, funext hsize]
  · simp only [WordBank.emptyCategories, hsize]

theorem beq_eq_true_iff : (a == b) = true ↔ ∀ c, a.entry? c = b.entry? c := by
  have hbeq : (a == b) = Category.all.all fun c => a.entry? c == b.entry? c := rfl
  simp [hbeq, Category.mem_all]

/-- A copy through a store has the words of the bank. -/
theorem agree_bank_toStore (b : WordBank) (source : NumberStream) :
    Agree (b.toStore source).bank b :=
  .of_words fun c => by rw [WordBank.words, entry?_bank_toStore, Option.getD_some]

/-- A copy through a store is equal to the bank if and only if the bank has all sets. -/
theorem bank_toStore_beq_iff (b : WordBank) (source : NumberStream) :
    ((b.toStore source).bank == b) = true ↔ ∀ c, ∃ words, b.entry? c = some words := by
  rw [beq_eq_true_iff]
  refine forall_congr' fun c => ?_
  rw [entry?_bank_toStore]
  cases hentry : b.entry? c with
  | none => simp
  | some set => simp [words, hentry]

/-- A copy of a bank through a store in memory answers as the bank does, and is equal to it if and
only if a set was inserted for every category. A copy of the copy is equal to the copy. -/
theorem snapshot_toStore (inserts : List (Category × WordSet)) (source other : NumberStream) :
    (∀ c, entry? (ofInserts inserts) c = inserts.reverse.lookup c) ∧
      ∃ copy, snapshot ((ofInserts inserts).toStore source) =
          (.ok copy, (ofInserts inserts).toStore source) ∧
        Agree copy (ofInserts inserts) ∧
        ((copy == ofInserts inserts) = true ↔ ∀ c, ∃ words, (c, words) ∈ inserts) ∧
        (∃ again, snapshot (copy.toStore other) = (.ok again, copy.toStore other) ∧
          (again == copy) = true) ∧
        ∀ bank : WordBank, bank.total = (Category.all.map bank.size).sum := by
  let b := ofInserts inserts
  have hequal : ((b.toStore source).bank == b) = true ↔ ∀ c, ∃ words, (c, words) ∈ inserts := by
    rw [bank_toStore_beq_iff]
    exact forall_congr' fun c => exists_entry?_ofInserts_iff
  have hagain : (((b.toStore source).bank.toStore other).bank == (b.toStore source).bank) = true :=
    (bank_toStore_beq_iff _ other).mpr fun c => ⟨_, entry?_bank_toStore b source c⟩
  exact ⟨entry?_ofInserts inserts, (b.toStore source).bank, snapshot_eq _,
    agree_bank_toStore b source, hequal, ⟨_, snapshot_eq _, hagain⟩, total_eq⟩

end WordBank

end RandomSentences
