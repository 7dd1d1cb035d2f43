import RandomSentences.Proofs.Coverage
import RandomSentences.Proofs.Decoding
import RandomSentences.Store.Loading

/-!
# Loading a directory of word lists

* **Which files.** The word lists of a directory are the entries whose whole name is the key of a
  category with `.txt` after it. The stem and the extension of such a name are the two parts, and
  the reading of a stem as a category undoes the writing of the key
  (`WordList.fileOf?_eq_some_iff`). Names are unlike, so these entries have one order by their
  names, and it does not depend on the order in which a directory lists its entries
  (`WordList.ofEntries_eq_of_perm`).
* **What is added.** `MemoryStore.Adds` says of two stores that the second has the words of some
  files more, and nothing else. Categories are unlike too, so no file adds to the set of another,
  and one file after another can be added (`MemoryStore.Adds.cons`). The induction over the files is
  `MemoryStore.addFiles_cases`: all are added, or those before the first that holds no text.

`MemoryStore.extend_of_readDirectory` puts both together, for every directory and every store.
-/

namespace RandomSentences

/-! ### The word lists of a directory -/

theorem FileName.lt_of_compare {a b : FileName} (hle : (compare a b).isLE = true) (hne : a ≠ b) :
    a < b := by
  induction a generalizing b with
  | nil =>
    cases b with
    | nil => exact absurd rfl hne
    | cons y ys => exact List.nil_lt_cons y ys
  | cons x xs ih =>
    cases b with
    | nil => simp at hle
    | cons y ys =>
      rw [List.compare_cons_cons] at hle
      rw [List.cons_lt_cons_iff]
      cases hxy : compare x y with
      | lt => exact .inl (Std.compare_eq_lt.mp hxy)
      | eq =>
        obtain rfl := Std.LawfulEqCmp.eq_of_compare hxy
        exact .inr ⟨rfl, ih (by simpa [hxy] using hle) fun h => hne (by rw [h])⟩
      | gt => simp [hxy] at hle

namespace WordList

/-- The name of the word list of a category. -/
def fileName (c : Category) : FileName :=
  Utf8.encode (c.key ++ ".txt")

variable {entries : List (FileName × FileNode)} {file : File}

theorem fileName_eq (c : Category) :
    fileName c = Utf8.encode c.key ++ dot :: Utf8.encode "txt" := by
  have hend : Utf8.encode ".txt" = dot :: Utf8.encode "txt" := by decide +kernel
  rw [fileName, Utf8.encode_append, hend]

theorem stem_fileName (c : Category) :
    (fileName c).stem = Utf8.encode c.key ∧ (fileName c).extension? = some (Utf8.encode "txt") := by
  have hstem : Utf8.encode c.key ≠ [] := by cases c <;> decide +kernel
  have hdot : dot ∉ Utf8.encode "txt" := by decide +kernel
  rw [fileName_eq, FileName.stem, FileName.extension?, FileName.splitExtension_append hstem hdot]
  exact ⟨rfl, rfl⟩

/-- An entry is the word list of a category exactly if its name is that of this list. -/
theorem fileOf?_eq_some_iff {name : FileName} {node : FileNode} :
    fileOf? (name, node) = some file ↔
      file.name = name ∧ file.node = node ∧ name = fileName file.category := by
  constructor
  · intro h
    unfold fileOf? at h
    dsimp only at h
    split_ifs at h with hextension
    cases hcategory : (Utf8.text? name.stem).bind Category.ofKey? with
    | none => simp [hcategory] at h
    | some category =>
      obtain rfl : ⟨category, name, node⟩ = file := by simpa [hcategory] using h
      obtain ⟨text, htext, hkey⟩ := Option.bind_eq_some_iff.mp hcategory
      obtain rfl := Category.ofKey?_eq_some_iff.mp hkey
      obtain ⟨hdot, stem, hstem, hname⟩ := FileName.extension?_eq_some_iff.mp hextension
      have hwhole : name.stem = stem := by
        rw [hname, FileName.stem, FileName.splitExtension_append hstem hdot]
      refine ⟨rfl, rfl, ?_⟩
      rw [fileName_eq, Utf8.text?_eq_some_iff.mp htext, hwhole, hname]
  · rintro ⟨rfl, rfl, hname⟩
    obtain ⟨hstem, hextension⟩ := stem_fileName file.category
    have htext : Utf8.text? (fileName file.category).stem = some file.category.key :=
      Utf8.text?_eq_some_iff.mpr hstem.symm
    rw [fileOf?, hname, if_pos hextension, htext, Option.bind_some, Category.ofKey?_key, ← hname]

theorem mem_ofEntries_iff :
    file ∈ ofEntries entries ↔
      (file.name, file.node) ∈ entries ∧ file.name = fileName file.category := by
  rw [ofEntries, List.mem_mergeSort, List.mem_filterMap]
  constructor
  · rintro ⟨⟨name, node⟩, hmem, hfile⟩
    obtain ⟨rfl, rfl, hname⟩ := fileOf?_eq_some_iff.mp hfile
    exact ⟨hmem, hname⟩
  · rintro ⟨hmem, hname⟩
    exact ⟨_, hmem, fileOf?_eq_some_iff.mpr ⟨rfl, rfl, hname⟩⟩

/-- Where no name occurs twice, the word lists stand in the order of their names. -/
theorem pairwise_ofEntries (h : (entries.map Prod.fst).Nodup) :
    (ofEntries entries).Pairwise fun a b => a.name < b.name := by
  have hunlike : (entries.filterMap fileOf?).Pairwise fun a b => a.name ≠ b.name := by
    refine (List.pairwise_map.mp h).filterMap fileOf? fun x y hne a ha b hb => ?_
    rw [(fileOf?_eq_some_iff.mp ha).1, (fileOf?_eq_some_iff.mp hb).1]
    exact hne
  have hsorted : (ofEntries entries).Pairwise fun a b => (compare a.name b.name).isLE = true := by
    refine List.pairwise_mergeSort (fun a b c => Std.TransCmp.isLE_trans) (fun a b => ?_) _
    have hswap : compare b.name a.name = (compare a.name b.name).swap := Std.OrientedCmp.eq_swap
    rw [hswap]
    cases compare a.name b.name <;> rfl
  have hstill : (ofEntries entries).Pairwise fun a b => a.name ≠ b.name :=
    (List.Perm.pairwise_iff Ne.symm (List.mergeSort_perm _ _)).mpr hunlike
  exact (hsorted.and hstill).imp fun h => FileName.lt_of_compare h.1 h.2

/-- There is at most one word list of a category. -/
theorem nodup_category_ofEntries (h : (entries.map Prod.fst).Nodup) :
    ((ofEntries entries).map File.category).Nodup := by
  refine List.pairwise_map.mpr ((pairwise_ofEntries h).imp_of_mem fun {a b} ha hb hlt heq => ?_)
  rw [(mem_ofEntries_iff.mp ha).2, (mem_ofEntries_iff.mp hb).2, heq] at hlt
  exact List.lt_irrefl _ hlt

/-- There is one way only to put the word lists into the order of their names. -/
theorem ofEntries_eq_of_pairwise (h : (entries.map Prod.fst).Nodup) {lists : List File}
    (hperm : lists.Perm (entries.filterMap fileOf?))
    (hsorted : lists.Pairwise fun a b => a.name < b.name) : ofEntries entries = lists :=
  ((List.mergeSort_perm _ _).trans hperm.symm).eq_of_pairwise
    (fun _ _ _ _ hab hba => absurd hba (List.lt_asymm hab)) (pairwise_ofEntries h) hsorted

/-- The order in which a directory lists its entries does not matter. -/
theorem ofEntries_eq_of_perm (h : (entries.map Prod.fst).Nodup)
    {others : List (FileName × FileNode)} (hperm : others.Perm entries) :
    ofEntries others = ofEntries entries := by
  have hothers : (others.map Prod.fst).Nodup := (hperm.map Prod.fst).nodup_iff.mpr h
  have hlists : (ofEntries others).Perm (entries.filterMap fileOf?) :=
    (List.mergeSort_perm _ _).trans (hperm.filterMap fileOf?)
  exact (ofEntries_eq_of_pairwise h hlists (pairwise_ofEntries hothers)).symm

theorem wordListFiles_eq_of_pairwise {files : Snapshot} {directory : FilePath} {lists : List File}
    (hentries : files.readDirectory directory = .ok entries)
    (h : (entries.map Prod.fst).Nodup) (hperm : lists.Perm (entries.filterMap fileOf?))
    (hsorted : lists.Pairwise fun a b => a.name < b.name) :
    wordListFiles files directory = .ok lists := by
  rw [wordListFiles, hentries, ← ofEntries_eq_of_pairwise h hperm hsorted]
  rfl

/-- The file holds a text. -/
def File.IsText (file : File) : Prop :=
  ∃ text, file.node = .file (Utf8.encode text)

/-- `StopsAt lists before cause`: the first of the files that holds no text comes after those of
`before`, and this is the cause. -/
def StopsAt (lists before : List File) (cause : FileError) : Prop :=
  (∀ file ∈ before, file.IsText) ∧
    ∃ file after, lists = before ++ file :: after ∧ file.node.Refuses cause

end WordList

/-! ### Adding the files to a store -/

namespace MemoryStore

open WordList

variable {s t : MemoryStore} {file : File} {lists : List File}

/-- `Adds s lists t`: the store `t` has the words of the files beside those of `s`, each in the set
of its category; all other sets, and the source for draws, are those of `s`. -/
structure Adds (s : MemoryStore) (lists : List File) (t : MemoryStore) : Prop where
  listed : ∀ file ∈ lists, ∃ text, file.node = .file (Utf8.encode text) ∧
    ∀ word, word ∈ t.members file.category.key ↔
      word ∈ s.members file.category.key ∨ word ∈ parse text
  others : ∀ key, (∀ file ∈ lists, file.category.key ≠ key) → t.sets[key]? = s.sets[key]?
  source : t.source = s.source

theorem members_eq_of_getElem? {key : String} (h : t.sets[key]? = s.sets[key]?) :
    t.members key = s.members key := by
  rw [members, members, Std.ExtTreeMap.getD_eq_getD_getElem?, h,
    Std.ExtTreeMap.getD_eq_getD_getElem?]

theorem getElem?_sets_insert {key other : String} (hne : key ≠ other) (words : List String) :
    (s.insert key words).sets[other]? = s.sets[other]? := by
  simp [insert, Std.ExtTreeMap.getElem?_insert, hne]

theorem Adds.nil (s : MemoryStore) : Adds s [] s where
  listed := by simp
  others _ _ := rfl
  source := rfl

/-- A file of another category than all others may be added before them. -/
theorem Adds.cons {text : String} (hfile : file.node = .file (Utf8.encode text))
    (hunlike : ∀ other ∈ lists, other.category ≠ file.category)
    (h : Adds (s.insert file.category.key (parse text)) lists t) : Adds s (file :: lists) t where
  listed other hother := by
    rcases List.mem_cons.mp hother with rfl | hother
    · have hkeys : ∀ later ∈ lists, later.category.key ≠ other.category.key :=
        fun later hlater heq => hunlike later hlater (Category.key_injective heq)
      refine ⟨text, hfile, fun word => ?_⟩
      rw [members_eq_of_getElem? (h.others _ hkeys), mem_members_insert]
      simp
    · have hkey : file.category.key ≠ other.category.key :=
        fun heq => hunlike other hother (Category.key_injective heq).symm
      obtain ⟨text, htext, hwords⟩ := h.listed other hother
      exact ⟨text, htext, fun word => by simp [hwords, mem_members_insert, hkey]⟩
  others key hkey := by
    obtain ⟨hfirst, hlists⟩ := List.forall_mem_cons.mp hkey
    rw [h.others key hlists, getElem?_sets_insert hfirst]
  source := h.source

/-- Files of different categories are all added, or those before the first that holds no text. -/
theorem addFiles_cases (hunlike : (lists.map File.category).Nodup) (s : MemoryStore) :
    (∃ t, Adds s lists t ∧ s.addFiles lists = (.ok (), t)) ∨
      ∃ before cause t, StopsAt lists before cause ∧ Adds s before t ∧
        s.addFiles lists = (.error cause, t) := by
  induction lists generalizing s with
  | nil => exact .inl ⟨s, .nil s, rfl⟩
  | cons file lists ih =>
    rw [List.map_cons, List.nodup_cons] at hunlike
    have hother : ∀ other ∈ lists, other.category ≠ file.category :=
      fun other hother heq => hunlike.1 (heq ▸ List.mem_map_of_mem hother)
    cases htext : file.node.text with
    | error cause =>
      have hwords : file.words = .error cause := by rw [File.words, htext]; rfl
      refine .inr ⟨[], cause, s, ⟨by simp, file, lists, rfl, ?_⟩, .nil s, by rw [addFiles, hwords]⟩
      exact FileNode.text_eq_error_iff.mp htext
    | ok text =>
      have hwords : file.words = .ok (parse text) := by rw [File.words, htext]; rfl
      have hfile := FileNode.text_eq_ok_iff.mp htext
      have hstep : s.addFiles (file :: lists) =
          (s.insert file.category.key (parse text)).addFiles lists := by rw [addFiles, hwords]
      rw [hstep]
      rcases ih hunlike.2 (s.insert file.category.key (parse text)) with
        ⟨t, hadds, hrun⟩ | ⟨before, cause, t, ⟨htexts, last, after, rfl, hcause⟩, hadds, hrun⟩
      · exact .inl ⟨t, .cons hfile hother hadds, hrun⟩
      · have hbefore : ∀ other ∈ before, other.category ≠ file.category :=
          fun other hmem => hother other (List.mem_append_left _ hmem)
        refine .inr ⟨file :: before, cause, t, ⟨?_, last, after, rfl, hcause⟩,
          .cons hfile hbefore hadds, hrun⟩
        exact List.forall_mem_cons.mpr ⟨⟨text, hfile⟩, htexts⟩

section

variable {files : Snapshot} {directory : FilePath}

theorem extend_cases (hlists : wordListFiles files directory = .ok lists)
    (hunlike : (lists.map File.category).Nodup) (s : MemoryStore) :
    (∃ t, Adds s lists t ∧ s.extend files directory = (.ok lists.length, t)) ∨
      ∃ before cause t, StopsAt lists before cause ∧ Adds s before t ∧
        s.extend files directory = (.error cause, t) := by
  rcases addFiles_cases hunlike s with
    ⟨t, hadds, hrun⟩ | ⟨before, cause, t, hstops, hadds, hrun⟩
  · exact .inl ⟨t, hadds, by simp [extend, hlists, hrun]⟩
  · exact .inr ⟨before, cause, t, hstops, hadds, by simp [extend, hlists, hrun]⟩

theorem load_cases (hlists : wordListFiles files directory = .ok lists)
    (hunlike : (lists.map File.category).Nodup) (source : NumberStream) :
    (∃ t, Adds (empty source) lists t ∧ load files directory source = .ok t) ∨
      ∃ before cause, StopsAt lists before cause ∧
        load files directory source = .error cause := by
  rcases extend_cases hlists hunlike (empty source) with
    ⟨t, hadds, hrun⟩ | ⟨before, cause, t, hstops, -, hrun⟩
  · exact .inl ⟨t, hadds, by rw [load, hrun]⟩
  · exact .inr ⟨before, cause, hstops, by rw [load, hrun]⟩

/-- The word lists of a directory are the entries with the name of a word list, in the order of
their names, at most one for a category, however the entries are listed. They are added to a store,
all of them or those before the first that holds no text; and a store is made of them in the same
way, unless one of them holds no text. -/
theorem extend_of_readDirectory {entries : List (FileName × FileNode)}
    (hentries : files.readDirectory directory = .ok entries)
    (hnames : (entries.map Prod.fst).Nodup) :
    ∃ lists, wordListFiles files directory = .ok lists ∧
      (∀ file : File, file ∈ lists ↔
        (file.name, file.node) ∈ entries ∧ file.name = Utf8.encode (file.category.key ++ ".txt")) ∧
      (lists.map File.category).Nodup ∧
      lists.Pairwise (fun a b => a.name < b.name) ∧
      (∀ others otherPath listing, Snapshot.readDirectory others otherPath = .ok listing →
        listing.Perm entries → wordListFiles others otherPath = .ok lists) ∧
      (∀ s : MemoryStore,
        (∃ t, Adds s lists t ∧ s.extend files directory = (.ok lists.length, t)) ∨
          ∃ before cause t, StopsAt lists before cause ∧ Adds s before t ∧
            s.extend files directory = (.error cause, t)) ∧
      ∀ source,
        (∃ t, Adds (empty source) lists t ∧ load files directory source = .ok t) ∨
          ∃ before cause, StopsAt lists before cause ∧
            load files directory source = .error cause := by
  have hunlike := nodup_category_ofEntries hnames
  have hlists : wordListFiles files directory = .ok (ofEntries entries) := by
    rw [wordListFiles, hentries]
    rfl
  refine ⟨ofEntries entries, hlists, fun file => mem_ofEntries_iff, hunlike,
    pairwise_ofEntries hnames, fun others otherPath listing hlisting hperm => ?_,
    extend_cases hlists hunlike, load_cases hlists hunlike⟩
  rw [wordListFiles, hlisting, ← ofEntries_eq_of_perm hnames hperm]
  rfl

end

/-- The entries of a directory with the word lists of two categories. The list of the verbs is no
text, one of the other names has two dots, and one is no text itself. -/
def pantryEntries : List (FileName × FileNode) :=
  [(Utf8.encode "verbs.txt", .file [0xFF]),
    (Utf8.encode "nouns.old.txt", .file (Utf8.encode "owl\n")),
    (Utf8.encode "nouns.txt", .file (Utf8.encode " fox \r\n\nhen")),
    (0xFF :: Utf8.encode ".txt", .directory [])]

def pantry : Snapshot :=
  .ofTree (.directory [(Utf8.encode "pantry", .directory pantryEntries)])

def pantryNouns : File :=
  ⟨.nouns, Utf8.encode "nouns.txt", .file (Utf8.encode " fox \r\n\nhen")⟩

def pantryVerbs : File :=
  ⟨.verbs, Utf8.encode "verbs.txt", .file [0xFF]⟩

/-- The nouns are added to any store before the verbs cannot be read. -/
theorem extend_of_readDirectory_pantry :
    pantry.readDirectory (Utf8.encode "pantry") = .ok pantryEntries ∧
      (pantryEntries.map Prod.fst).Nodup ∧
      wordListFiles pantry (Utf8.encode "pantry") = .ok [pantryNouns, pantryVerbs] ∧
      ∀ s : MemoryStore, ∃ t, Adds s [pantryNouns] t ∧
        s.extend pantry (Utf8.encode "pantry") = (.error .notUtf8, t) := by
  have hentries : pantry.readDirectory (Utf8.encode "pantry") = .ok pantryEntries := by
    decide +kernel
  have hnames : (pantryEntries.map Prod.fst).Nodup := by decide +kernel
  have hcomputed :
      wordListFiles pantry (Utf8.encode "pantry") = .ok [pantryNouns, pantryVerbs] := by
    have hfiles : pantryEntries.filterMap fileOf? = [pantryVerbs, pantryNouns] := by
      decide +kernel
    refine wordListFiles_eq_of_pairwise hentries hnames ?_ (by decide +kernel)
    rw [hfiles]
    exact .swap ..
  have hnouns : pantryNouns.node.text = .ok " fox \r\n\nhen" := FileNode.text_eq_ok_iff.mpr rfl
  have hverbs : pantryVerbs.node.text = .error .notUtf8 := by decide +kernel
  obtain ⟨lists, hlists, -, -, -, -, hextend, -⟩ := extend_of_readDirectory hentries hnames
  obtain rfl : lists = [pantryNouns, pantryVerbs] := Except.ok.inj (hlists.symm.trans hcomputed)
  refine ⟨hentries, hnames, hcomputed, fun s => ?_⟩
  rcases hextend s with
    ⟨t, hadds, -⟩ | ⟨before, cause, t, ⟨-, file, after, hsplit, hcause⟩, hadds, hrun⟩
  · obtain ⟨text, htext, -⟩ := hadds.listed pantryVerbs (by simp)
    rw [FileNode.text_eq_ok_iff.mpr htext] at hverbs
    cases hverbs
  · rw [← FileNode.text_eq_error_iff] at hcause
    -- the nouns hold a text, so the first file that does not can only be the second one
    rcases before with _ | ⟨first, _ | ⟨second, before⟩⟩
    · obtain ⟨rfl, -⟩ := List.cons.inj hsplit
      rw [hnouns] at hcause
      cases hcause
    · obtain ⟨rfl, hrest⟩ := List.cons.inj hsplit
      obtain ⟨rfl, -⟩ := List.cons.inj hrest
      rw [hverbs] at hcause
      exact ⟨t, hadds, Except.error.inj hcause ▸ hrun⟩
    · simp at hsplit

end MemoryStore

end RandomSentences
