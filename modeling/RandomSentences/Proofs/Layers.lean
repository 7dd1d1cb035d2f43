import RandomSentences.Files.Tree
import RandomSentences.Proofs.Bracketing
import RandomSentences.Service.Builder

/-!
# Setting up a service from grammar files

A service starts from a base grammar and merges one grammar file after the other into it. Every such
step reads all tokens anew and looks for cycles, so a step may fail on a cycle that a later file
would have broken. `ServiceBuilder.build_layers` says what comes of all steps together, in terms of
what the files say: a service is set up exactly if it has a store, the base is a grammar, every file
is one by itself, and there is no cycle after any of the files (`Layers`); its grammar is then the
one that is built in a single step from all rules, of which the later win. Otherwise the error is
the first that is met on the way.

* **Step.** Merging two grammars is building one from what both were built from, so it fails on
  nothing but a cycle (`Grammar.merge_eq_toGrammar_union`).
* **Run.** So the grammar after some files is the one built from all that was said so far
  (`mergeFiles_eq_ok_iff`, `mergeFiles_eq_error_iff`). The files are gone through by induction, with
  what the base says growing by one file at a time.
-/

namespace RandomSentences

section Except

variable {ε α β : Type} {computation : Except ε α} {next : α → Except ε β}

theorem bind_eq_ok_iff {b : β} :
    (computation >>= next) = .ok b ↔ ∃ a, computation = .ok a ∧ next a = .ok b := by
  cases computation <;> simp [bind, Except.bind]

theorem bind_eq_error_iff {cause : ε} :
    (computation >>= next) = .error cause ↔
      computation = .error cause ∨ ∃ a, computation = .ok a ∧ next a = .error cause := by
  cases computation <;> simp [bind, Except.bind]

end Except

/-! ### What grammar files say -/

namespace GrammarText

/-- What the grammar file at a path says, before its rules are checked. -/
def ofFile (files : Snapshot) (path : FilePath) : Except GrammarError GrammarText :=
  match files.readText path with
  | .error cause => .error (.file cause)
  | .ok text =>
    match read text with
    | .error cause => .error (.format cause.description)
    | .ok said => .ok said

/-- The grammar with the start symbol and the rules that a text gives. -/
def toGrammar (text : GrammarText) : Except GrammarError Grammar :=
  Grammar.ofRules text.start text.rules

/-- The rules of the text make a grammar by themselves. -/
def Acceptable (text : GrammarText) : Prop :=
  Draft.Acceptable text.rules text.start

/-- No rule of the text leads back to itself along references. -/
def Acyclic (text : GrammarText) : Prop :=
  ∀ name, ¬ Relation.TransGen (Draft.RefersTo text.rules) name name

/-- What a text and later ones say together: the start symbol of the first, and the rules of all, of
which the later win. -/
def union (base : GrammarText) (texts : List GrammarText) : GrammarText :=
  ⟨base.start, base.rules ++ texts.flatMap rules⟩

theorem union_nil (base : GrammarText) : base.union [] = base := by
  rw [union, List.flatMap_nil, List.append_nil]

theorem union_union (base : GrammarText) (texts later : List GrammarText) :
    (base.union texts).union later = base.union (texts ++ later) := by
  simp only [union, List.flatMap_append, List.append_assoc]

theorem exists_toGrammar_eq_ok_iff {text : GrammarText} :
    (∃ g, text.toGrammar = .ok g) ↔ text.Acceptable := by
  simp only [toGrammar, Grammar.ofRules, Grammar.exists_ofTokens_eq_ok_iff, Acceptable,
    Draft.acceptable_iff]

theorem start_of_toGrammar {text : GrammarText} {g : Grammar} (h : text.toGrammar = .ok g) :
    g.start = text.start := by
  rw [toGrammar, Grammar.ofRules, Grammar.ofTokens_eq_ok_iff] at h
  exact h.2.1

theorem acceptable_of_toGrammar {text : GrammarText} {g : Grammar} (h : text.toGrammar = .ok g) :
    text.Acceptable :=
  exists_toGrammar_eq_ok_iff.mp ⟨g, h⟩

end GrammarText

open GrammarText

namespace Grammar

variable {g h : Grammar} {base text : GrammarText}

/-- A file is loaded by reading what it says and building the grammar of that. -/
theorem load_eq_bind (files : Snapshot) (path : FilePath) :
    load files path = ofFile files path >>= toGrammar := by
  unfold load ofFile parse
  cases files.readText path with
  | error cause => rfl
  | ok text => cases hread : GrammarText.read text <;> simp [hread, bind, Except.bind, toGrammar]

theorem load_eq_ok_iff {files : Snapshot} {path : FilePath} :
    load files path = .ok h ↔ ∃ text, ofFile files path = .ok text ∧ text.toGrammar = .ok h := by
  rw [load_eq_bind, bind_eq_ok_iff]

/-- Merging two grammars is building one from the texts that both were built from. -/
theorem merge_eq_toGrammar_union (hg : base.toGrammar = .ok g) (hh : text.toGrammar = .ok h) :
    g.merge h = (base.union [text]).toGrammar := by
  rw [merge_eq_ofRules_append hg hh, toGrammar, union, List.flatMap_singleton]

/-- Two grammars can be merged exactly if the rules of both texts together have no cycle. -/
theorem exists_merge_eq_ok_iff_acyclic (hg : base.toGrammar = .ok g) (hh : text.toGrammar = .ok h) :
    (∃ m, g.merge h = .ok m) ↔ (base.union [text]).Acyclic := by
  rw [exists_merge_eq_ok_iff, tokens_ofRules hg, tokens_ofRules hh, ← Draft.ofPairs_append,
    Draft.cycle?_classify_eq_none_iff, Acyclic, union, List.flatMap_singleton]

end Grammar

/-! ### Files on top of each other -/

/-- `Layers files base paths texts`: the texts are what the files say, each of them makes a grammar
by itself, and from none of the files to all of them, the rules of the base and of the files so far
have no cycle. -/
structure Layers (files : Snapshot) (base : GrammarText) (paths : List FilePath)
    (texts : List GrammarText) : Prop where
  ofFile_eq : List.Forall₂ (fun path text => ofFile files path = .ok text) paths texts
  acceptable : ∀ text ∈ texts, text.Acceptable
  acyclic : ∀ k ≤ texts.length, (base.union (texts.take k)).Acyclic

/-- `NextFault files base texts path cause`: on top of a base and of what some files said, the next
file is refused for some cause. -/
inductive NextFault (files : Snapshot) (base : GrammarText) (texts : List GrammarText)
    (path : FilePath) : GrammarError → Prop
  /-- The file makes no grammar by itself. -/
  | load {cause : GrammarError} (hload : Grammar.load files path = .error cause) :
      NextFault files base texts path cause
  /-- The file makes a grammar by itself, but with its rules there is a cycle. -/
  | cycle {text : GrammarText} {cycle : List String} (hread : ofFile files path = .ok text)
      (hacceptable : text.Acceptable)
      (hcycle : (base.union (texts ++ [text])).toGrammar = .error (.cycle cycle)) :
      NextFault files base texts path (.cycle cycle)

namespace Layers

variable {files : Snapshot} {base : GrammarText} {path : FilePath} {paths : List FilePath}
  {texts : List GrammarText}

/-- Below all layers, the base has no cycle by itself. -/
theorem acyclic_base (h : Layers files base paths texts) : base.Acyclic := by
  have hnone := h.acyclic 0 (Nat.zero_le _)
  rwa [List.take_zero, union_nil] at hnone

theorem nil_iff : Layers files base [] texts ↔ texts = [] ∧ base.Acyclic := by
  constructor
  · intro h
    exact ⟨List.forall₂_nil_left_iff.mp h.ofFile_eq, h.acyclic_base⟩
  · rintro ⟨rfl, hacyclic⟩
    exact ⟨.nil, by simp, by simpa [union_nil] using hacyclic⟩

/-- The first file is put on top of the base, and the others on top of both. -/
theorem cons_iff :
    Layers files base (path :: paths) texts ↔ ∃ text later, texts = text :: later ∧
      ofFile files path = .ok text ∧ text.Acceptable ∧ base.Acyclic ∧
      Layers files (base.union [text]) paths later := by
  constructor
  · intro h
    obtain ⟨text, later, hfirst, hlater, rfl⟩ := List.forall₂_cons_left_iff.mp h.ofFile_eq
    obtain ⟨htext, hothers⟩ := List.forall_mem_cons.mp h.acceptable
    refine ⟨text, later, rfl, hfirst, htext, h.acyclic_base, hlater, hothers, fun k hk => ?_⟩
    rw [union_union]
    exact h.acyclic (k + 1) (Nat.succ_le_succ hk)
  · rintro ⟨text, later, rfl, hfirst, htext, hbase, hread, hacceptable, hacyclic⟩
    refine ⟨.cons hfirst hread, List.forall_mem_cons.mpr ⟨htext, hacceptable⟩, ?_⟩
    rintro (_ | k) hk
    · rwa [List.take_zero, union_nil]
    · rw [List.take_succ_cons, ← List.singleton_append, ← union_union]
      exact hacyclic k (Nat.le_of_succ_le_succ hk)

end Layers

/-- On top of a base with a first text on it, the next file is refused for what it is refused for on
top of the base with that text as the first. -/
theorem nextFault_union_iff {files : Snapshot} {base text : GrammarText} {texts : List GrammarText}
    {path : FilePath} {cause : GrammarError} :
    NextFault files (base.union [text]) texts path cause ↔
      NextFault files base (text :: texts) path cause := by
  constructor
  · rintro (hload | ⟨hread, hacceptable, hcycle⟩)
    · exact .load hload
    · rw [union_union] at hcycle
      exact .cycle hread hacceptable hcycle
  · rintro (hload | ⟨hread, hacceptable, hcycle⟩)
    · exact .load hload
    · refine .cycle hread hacceptable ?_
      rwa [union_union]

namespace ServiceBuilder

variable {files : Snapshot} {g m h next : Grammar} {base : GrammarText} {path : FilePath}
  {paths : List FilePath} {texts : List GrammarText} {cause : GrammarError}

/-! ### Merging one file -/

theorem mergeFiles_cons_eq_ok_iff :
    mergeFiles files g (path :: paths) = .ok m ↔ ∃ h, Grammar.load files path = .ok h ∧
      ∃ next, g.merge h = .ok next ∧ mergeFiles files next paths = .ok m := by
  simp only [mergeFiles, bind_eq_ok_iff]

theorem mergeFiles_cons_eq_error_iff :
    mergeFiles files g (path :: paths) = .error cause ↔ Grammar.load files path = .error cause ∨
      ∃ h, Grammar.load files path = .ok h ∧ (g.merge h = .error cause ∨
        ∃ next, g.merge h = .ok next ∧ mergeFiles files next paths = .error cause) := by
  simp only [mergeFiles, bind_eq_error_iff]

/-- A file that was merged is a layer, and the grammar of that is the result. -/
theorem exists_text_of_merge (hg : base.toGrammar = .ok g) (hload : Grammar.load files path = .ok h)
    (hmerge : g.merge h = .ok next) : ∃ text, (base.union [text]).toGrammar = .ok next ∧
      ∀ paths texts, Layers files (base.union [text]) paths texts →
        Layers files base (path :: paths) (text :: texts) := by
  obtain ⟨text, hread, hh⟩ := Grammar.load_eq_ok_iff.mp hload
  refine ⟨text, ?_, fun paths texts hlayers => ?_⟩
  · rw [← Grammar.merge_eq_toGrammar_union hg hh, hmerge]
  · exact Layers.cons_iff.mpr ⟨text, texts, rfl, hread, acceptable_of_toGrammar hh,
      (acceptable_of_toGrammar hg).acyclic, hlayers⟩

/-- A file that is the first layer can be merged, and the grammar of that is the result. -/
theorem exists_merge_of_layers (hg : base.toGrammar = .ok g)
    (hlayers : Layers files base (path :: paths) texts) : ∃ text later h next,
      texts = text :: later ∧ Layers files (base.union [text]) paths later ∧
        Grammar.load files path = .ok h ∧ g.merge h = .ok next ∧
          (base.union [text]).toGrammar = .ok next := by
  obtain ⟨text, later, rfl, hread, htext, -, hlater⟩ := Layers.cons_iff.mp hlayers
  obtain ⟨h, hh⟩ := exists_toGrammar_eq_ok_iff.mpr htext
  obtain ⟨next, hmerge⟩ := (Grammar.exists_merge_eq_ok_iff_acyclic hg hh).mpr hlater.acyclic_base
  have hload : Grammar.load files path = .ok h := Grammar.load_eq_ok_iff.mpr ⟨text, hread, hh⟩
  refine ⟨text, later, h, next, rfl, hlater, hload, hmerge, ?_⟩
  rw [← Grammar.merge_eq_toGrammar_union hg hh, hmerge]

/-- A file makes no next layer exactly if it cannot be loaded or not be merged. -/
theorem nextFault_nil_iff (hg : base.toGrammar = .ok g) :
    NextFault files base [] path cause ↔ Grammar.load files path = .error cause ∨
      ∃ h, Grammar.load files path = .ok h ∧ g.merge h = .error cause := by
  constructor
  · rintro (hload | ⟨hread, hacceptable, hcycle⟩)
    · exact .inl hload
    · obtain ⟨h, hh⟩ := exists_toGrammar_eq_ok_iff.mpr hacceptable
      refine .inr ⟨h, Grammar.load_eq_ok_iff.mpr ⟨_, hread, hh⟩, ?_⟩
      rw [Grammar.merge_eq_toGrammar_union hg hh]
      exact hcycle
  · rintro (hload | ⟨h, hload, hmerge⟩)
    · exact .load hload
    · obtain ⟨text, hread, hh⟩ := Grammar.load_eq_ok_iff.mp hload
      obtain ⟨cycle, -, rfl⟩ := Grammar.merge_eq_error_iff.mp hmerge
      rw [Grammar.merge_eq_toGrammar_union hg hh] at hmerge
      exact .cycle hread (acceptable_of_toGrammar hh) hmerge

/-! ### Merging all files -/

/-- Files can be merged into a grammar exactly if they are layers on top of it; the result is then
built from the rules of all. -/
theorem mergeFiles_eq_ok_iff (hg : base.toGrammar = .ok g) :
    mergeFiles files g paths = .ok m ↔
      ∃ texts, Layers files base paths texts ∧ (base.union texts).toGrammar = .ok m := by
  -- what the base says grows by what the first file says
  induction paths generalizing g base with
  | nil =>
    have hbase : base.Acyclic := (acceptable_of_toGrammar hg).acyclic
    simp only [mergeFiles, Layers.nil_iff]
    constructor
    · intro h
      exact ⟨[], ⟨rfl, hbase⟩, by rw [union_nil, hg, ← h]⟩
    · rintro ⟨_, ⟨rfl, -⟩, h⟩
      rw [← hg, ← h, union_nil]
  | cons path paths ih =>
    rw [mergeFiles_cons_eq_ok_iff]
    constructor
    · rintro ⟨h, hload, next, hmerge, hrest⟩
      obtain ⟨text, hnext, hlayers⟩ := exists_text_of_merge hg hload hmerge
      obtain ⟨later, hlater, hm⟩ := (ih hnext).mp hrest
      rw [union_union] at hm
      exact ⟨text :: later, hlayers paths later hlater, hm⟩
    · rintro ⟨texts, hlayers, hm⟩
      obtain ⟨text, later, h, next, rfl, hlater, hload, hmerge, hnext⟩ :=
        exists_merge_of_layers hg hlayers
      refine ⟨h, hload, next, hmerge, (ih hnext).mpr ⟨later, hlater, ?_⟩⟩
      rwa [union_union]

/-- Layers can be merged. -/
theorem exists_mergeFiles_of_layers (hg : base.toGrammar = .ok g)
    (hlayers : Layers files base paths texts) : ∃ m, mergeFiles files g paths = .ok m := by
  induction paths generalizing g base texts with
  | nil => exact ⟨g, rfl⟩
  | cons path paths ih =>
    obtain ⟨text, later, h, next, -, hlater, hload, hmerge, hnext⟩ :=
      exists_merge_of_layers hg hlayers
    obtain ⟨m, hm⟩ := ih hnext hlater
    exact ⟨m, mergeFiles_cons_eq_ok_iff.mpr ⟨h, hload, next, hmerge, hm⟩⟩

/-- Merging files fails for what the first file is refused for that is no layer on top of those
before it. -/
theorem mergeFiles_eq_error_iff (hg : base.toGrammar = .ok g) :
    mergeFiles files g paths = .error cause ↔ ∃ before path after texts,
      paths = before ++ path :: after ∧ Layers files base before texts ∧
        NextFault files base texts path cause := by
  induction paths generalizing g base with
  | nil => simp [mergeFiles]
  | cons path paths ih =>
    have hbase : Layers files base [] [] :=
      Layers.nil_iff.mpr ⟨rfl, (acceptable_of_toGrammar hg).acyclic⟩
    rw [mergeFiles_cons_eq_error_iff]
    constructor
    · rintro (hload | ⟨h, hload, hmerge | ⟨next, hmerge, hrest⟩⟩)
      · exact ⟨[], path, paths, [], rfl, hbase, (nextFault_nil_iff hg).mpr (.inl hload)⟩
      · have hfault := (nextFault_nil_iff hg).mpr (.inr ⟨h, hload, hmerge⟩)
        exact ⟨[], path, paths, [], rfl, hbase, hfault⟩
      · obtain ⟨text, hnext, hlayers⟩ := exists_text_of_merge hg hload hmerge
        obtain ⟨before, last, after, texts, rfl, hbefore, hfault⟩ := (ih hnext).mp hrest
        exact ⟨path :: before, last, after, text :: texts, rfl, hlayers before texts hbefore,
          nextFault_union_iff.mp hfault⟩
    -- the file that is refused is the first or a later one
    · rintro ⟨_ | ⟨_, before⟩, last, after, texts, hpaths, hlayers, hfault⟩
      · obtain ⟨rfl, rfl⟩ : path = last ∧ paths = after := by simpa using hpaths
        obtain ⟨rfl, -⟩ := Layers.nil_iff.mp hlayers
        rcases (nextFault_nil_iff hg).mp hfault with hload | ⟨h, hload, hmerge⟩
        · exact .inl hload
        · exact .inr ⟨h, hload, .inl hmerge⟩
      · obtain ⟨rfl, rfl⟩ := List.cons_eq_cons.mp hpaths
        obtain ⟨text, later, h, next, rfl, hlater, hload, hmerge, hnext⟩ :=
          exists_merge_of_layers hg hlayers
        refine .inr ⟨h, hload, .inr ⟨next, hmerge, (ih hnext).mpr ?_⟩⟩
        exact ⟨before, last, after, later, rfl, hlater, nextFault_union_iff.mpr hfault⟩

/-! ### Building a service -/

variable {σ : Type} {builder : ServiceBuilder σ}

/-- What the base grammar is built from: the provided grammar written out, or else what the first
grammar file says, or else the built-in rules. -/
def baseText (builder : ServiceBuilder σ) (files : Snapshot) : Except GrammarError GrammarText :=
  match builder.grammar, builder.grammarPaths with
  | some g, _ => .ok ⟨g.start, g.written⟩
  | none, path :: _ => ofFile files path
  | none, [] => .ok ⟨Grammar.defaultStart, Grammar.englishRules⟩

/-- The grammar files that are merged into the base. -/
def further (builder : ServiceBuilder σ) : List FilePath :=
  match builder.grammar with
  | some _ => builder.grammarPaths
  | none => builder.grammarPaths.tail

/-- Why no service can be set up. -/
inductive Fault (builder : ServiceBuilder σ) (files : Snapshot) : ServiceError → Prop
  /-- There is no store. -/
  | store (hstore : builder.store = none) : Fault builder files .missingStore
  /-- The base is a file that makes no grammar. -/
  | base {path : FilePath} {paths : List FilePath} {cause : GrammarError}
      (hstore : builder.store.isSome = true) (hgrammar : builder.grammar = none)
      (hpaths : builder.grammarPaths = path :: paths)
      (hload : Grammar.load files path = .error cause) : Fault builder files (.grammar cause)
  /-- The base and the files before some further file make layers, but that file is refused. -/
  | further {base : GrammarText} {before after : List FilePath} {path : FilePath}
      {texts : List GrammarText} {cause : GrammarError} (hstore : builder.store.isSome = true)
      (hbase : builder.baseText files = .ok base) (hacceptable : base.Acceptable)
      (hpaths : builder.further = before ++ path :: after)
      (hlayers : Layers files base before texts) (hnext : NextFault files base texts path cause) :
      Fault builder files (.grammar cause)

/-- The grammar of the base is the provided one, or else that of the first file, or else the
built-in one. -/
theorem baseText_bind_toGrammar (builder : ServiceBuilder σ) (files : Snapshot) :
    (builder.baseText files >>= toGrammar) = match builder.grammar, builder.grammarPaths with
      | some g, _ => .ok g
      | none, path :: _ => Grammar.load files path
      | none, [] => .ok Grammar.english := by
  unfold baseText
  split
  · exact bind_eq_ok_iff.mpr ⟨_, rfl, Grammar.ofRules_of_perm_written (List.Perm.refl _)⟩
  · exact (Grammar.load_eq_bind files _).symm
  · exact bind_eq_ok_iff.mpr ⟨_, rfl, Grammar.ofRules_english⟩

/-- Only a base that is a file may be refused. -/
theorem baseText_bind_toGrammar_eq_error_iff :
    (builder.baseText files >>= toGrammar) = .error cause ↔ ∃ path paths, builder.grammar = none ∧
      builder.grammarPaths = path :: paths ∧ Grammar.load files path = .error cause := by
  rw [baseText_bind_toGrammar]
  cases builder.grammar <;> cases builder.grammarPaths <;> simp

/-- The further files are merged into the grammar of the base. -/
theorem buildGrammar_eq_bind (builder : ServiceBuilder σ) (files : Snapshot) :
    buildGrammar files builder.grammar builder.grammarPaths =
      (builder.baseText files >>= toGrammar) >>= fun g => mergeFiles files g builder.further := by
  rw [baseText_bind_toGrammar, further]
  cases builder.grammar <;> cases builder.grammarPaths <;> rfl

theorem buildGrammar_eq_ok_iff :
    buildGrammar files builder.grammar builder.grammarPaths = .ok m ↔ ∃ base texts,
      builder.baseText files = .ok base ∧ base.Acceptable ∧
        Layers files base builder.further texts ∧ (base.union texts).toGrammar = .ok m := by
  rw [buildGrammar_eq_bind, bind_eq_ok_iff]
  constructor
  · rintro ⟨g, hg, hm⟩
    obtain ⟨base, hbase, hg⟩ := bind_eq_ok_iff.mp hg
    obtain ⟨texts, hlayers, hm⟩ := (mergeFiles_eq_ok_iff hg).mp hm
    exact ⟨base, texts, hbase, acceptable_of_toGrammar hg, hlayers, hm⟩
  · rintro ⟨base, texts, hbase, hacceptable, hlayers, hm⟩
    obtain ⟨g, hg⟩ := exists_toGrammar_eq_ok_iff.mpr hacceptable
    refine ⟨g, bind_eq_ok_iff.mpr ⟨base, hbase, hg⟩, ?_⟩
    exact (mergeFiles_eq_ok_iff hg).mpr ⟨texts, hlayers, hm⟩

theorem exists_buildGrammar_eq_ok_iff :
    (∃ m, buildGrammar files builder.grammar builder.grammarPaths = .ok m) ↔ ∃ base texts,
      builder.baseText files = .ok base ∧ base.Acceptable ∧
        Layers files base builder.further texts := by
  constructor
  · rintro ⟨m, hm⟩
    obtain ⟨base, texts, hbase, hacceptable, hlayers, -⟩ := buildGrammar_eq_ok_iff.mp hm
    exact ⟨base, texts, hbase, hacceptable, hlayers⟩
  · rintro ⟨base, texts, hbase, hacceptable, hlayers⟩
    obtain ⟨g, hg⟩ := exists_toGrammar_eq_ok_iff.mpr hacceptable
    obtain ⟨m, hm⟩ := exists_mergeFiles_of_layers hg hlayers
    obtain ⟨texts, hlayers, hm⟩ := (mergeFiles_eq_ok_iff hg).mp hm
    exact ⟨m, buildGrammar_eq_ok_iff.mpr ⟨base, texts, hbase, hacceptable, hlayers, hm⟩⟩

theorem buildGrammar_eq_error_iff (hstore : builder.store.isSome = true) :
    buildGrammar files builder.grammar builder.grammarPaths = .error cause ↔
      builder.Fault files (.grammar cause) := by
  rw [buildGrammar_eq_bind, bind_eq_error_iff, baseText_bind_toGrammar_eq_error_iff]
  constructor
  · rintro (⟨path, paths, hgrammar, hpaths, hload⟩ | ⟨g, hg, hmerge⟩)
    · exact .base hstore hgrammar hpaths hload
    · obtain ⟨base, hbase, hg⟩ := bind_eq_ok_iff.mp hg
      obtain ⟨before, path, after, texts, hpaths, hlayers, hnext⟩ :=
        (mergeFiles_eq_error_iff hg).mp hmerge
      exact .further hstore hbase (acceptable_of_toGrammar hg) hpaths hlayers hnext
  · rintro (_ | ⟨-, hgrammar, hpaths, hload⟩ | ⟨-, hbase, hacceptable, hpaths, hlayers, hnext⟩)
    · exact .inl ⟨_, _, hgrammar, hpaths, hload⟩
    · obtain ⟨g, hg⟩ := exists_toGrammar_eq_ok_iff.mpr hacceptable
      refine .inr ⟨g, bind_eq_ok_iff.mpr ⟨_, hbase, hg⟩, ?_⟩
      exact (mergeFiles_eq_error_iff hg).mpr ⟨_, _, _, _, hpaths, hlayers, hnext⟩

theorem build_eq_ok_iff {service : SentenceService} {store : σ} :
    builder.build files = .ok (service, store) ↔ builder.store = some store ∧
      service.seed = builder.seed ∧
        buildGrammar files builder.grammar builder.grammarPaths = .ok service.grammar := by
  obtain ⟨g, seed⟩ := service
  unfold build
  cases builder.store with
  | none => simp
  | some given =>
    cases buildGrammar files builder.grammar builder.grammarPaths with
    | error cause => simp
    | ok m =>
      simp only [Except.ok.injEq, Prod.mk.injEq, SentenceService.mk.injEq, Option.some.injEq]
      tauto

theorem build_eq_error_iff {cause : ServiceError} :
    builder.build files = .error cause ↔ builder.Fault files cause := by
  cases hstore : builder.store with
  | none =>
    simp only [build, hstore, Except.error.injEq]
    constructor
    · rintro rfl
      exact .store hstore
    · rintro (_ | ⟨hsome, -, -, -⟩ | ⟨hsome, -, -, -, -, -⟩)
      · rfl
      all_goals simp [hstore] at hsome
  | some store =>
    have hsome : builder.store.isSome = true := by rw [hstore, Option.isSome_some]
    have hbuild : builder.build files = .error cause ↔ ∃ fault,
        buildGrammar files builder.grammar builder.grammarPaths = .error fault ∧
          cause = .grammar fault := by
      unfold build
      cases buildGrammar files builder.grammar builder.grammarPaths <;> simp [hstore, eq_comm]
    rw [hbuild]
    constructor
    · rintro ⟨fault, hfault, rfl⟩
      exact (buildGrammar_eq_error_iff hsome).mp hfault
    · intro hfault
      cases cause with
      | grammar fault => exact ⟨fault, (buildGrammar_eq_error_iff hsome).mpr hfault, rfl⟩
      | generate => exact nomatch hfault
      | missingStore =>
        obtain ⟨hnone⟩ := hfault
        exact absurd (hstore.symm.trans hnone) (by simp)

/-- **A service is set up exactly from a store and layers of valid grammars.** There must be a
store, the base must make a grammar, each further file must make one by itself, and after none of
them may the rules so far have a cycle. The grammar is then the one that is built in a single step
from the rules of all, of which the later win; it has the start symbol of the base, whatever the
further files say. Otherwise the error is the first that is met: that there is no store, or why the
base is no grammar, or else, for the first further file that is refused, why it is no grammar, or
the cycle that is found once its rules have been added. -/
theorem build_layers (builder : ServiceBuilder σ) (files : Snapshot) :
    ((∃ built, builder.build files = .ok built) ↔ builder.store.isSome = true ∧
      ∃ base texts, builder.baseText files = .ok base ∧ base.Acceptable ∧
        Layers files base builder.further texts) ∧
    (∀ service store, builder.build files = .ok (service, store) ↔ builder.store = some store ∧
      service.seed = builder.seed ∧ ∃ base texts, builder.baseText files = .ok base ∧
        base.Acceptable ∧ Layers files base builder.further texts ∧
          service.grammar.start = base.start ∧
          Grammar.ofRules base.start (base.rules ++ texts.flatMap GrammarText.rules) =
            .ok service.grammar) ∧
    ∀ cause, builder.build files = .error cause ↔ builder.Fault files cause := by
  refine ⟨?_, fun service store => ?_, fun cause => build_eq_error_iff⟩
  · rw [← exists_buildGrammar_eq_ok_iff, Option.isSome_iff_exists]
    constructor
    · rintro ⟨⟨service, store⟩, hbuild⟩
      obtain ⟨hstore, -, hgrammar⟩ := build_eq_ok_iff.mp hbuild
      exact ⟨⟨store, hstore⟩, service.grammar, hgrammar⟩
    · rintro ⟨⟨store, hstore⟩, m, hm⟩
      exact ⟨(⟨m, builder.seed⟩, store), build_eq_ok_iff.mpr ⟨hstore, rfl, hm⟩⟩
  · rw [build_eq_ok_iff, buildGrammar_eq_ok_iff]
    constructor
    · rintro ⟨hstore, hseed, base, texts, hbase, hacceptable, hlayers, hm⟩
      have hstart : service.grammar.start = (base.union texts).start := start_of_toGrammar hm
      exact ⟨hstore, hseed, base, texts, hbase, hacceptable, hlayers, hstart, hm⟩
    · rintro ⟨hstore, hseed, base, texts, hbase, hacceptable, hlayers, -, hm⟩
      exact ⟨hstore, hseed, base, texts, hbase, hacceptable, hlayers, hm⟩

/-- A directory of three grammar files: in the first, a hunt is for a fox, in the second, a fox is
what is hunted, and in the third, the hunt is over. -/
def hunt : Snapshot :=
  let file (name start : String) (rules : Draft) :=
    (name.toUTF8.toList, FileNode.file (GrammarText.write (some start) rules).toUTF8.toList)
  Snapshot.ofTree (.directory [
    file "a" "Hunt" [("Hunt", ["Fox"]), ("Fox", ["fox"])],
    file "b" "Fox" [("Fox", ["Hunt"])],
    file "c" "Hunt" [("Hunt", ["over"])]])

/-- The last file would break the cycle that is met with the second. -/
example :
    ((ServiceBuilder.mk none (["a", "b", "c"].map fun name => name.toUTF8.toList) none
      (some ())).build hunt).map (fun _ => ()) =
      .error (.grammar (.cycle ["Fox", "Hunt", "Fox"])) := by
  decide +kernel

end ServiceBuilder

end RandomSentences
