import Mathlib.Data.List.Basic
import RandomSentences.Grammar.English
import RandomSentences.Proofs.Coverage

/-!
# The verdict of the linter

The lines by which a report speaks of single files start with a mark each, and `LineKind.select`
reads them back from a report. `LineKind.about` says what is to be found there: a file that loads
gives one line and the warnings about its grammar, and any other file one error.
`Linter.IsReport` says this of a whole report, and that its last line counts the lines above it.

`Linter.runWith_of_hasTree` is what there is to know of a run whose arguments all name something:
which files were examined, what was reported on them, when the run fails, and that the order of the
arguments does not matter. `Linter.run_eq_of_perm` says the last of these of the command line
itself, where the paths and the switch for strict mode may be mixed.
-/

namespace RandomSentences

/-! ### The lines about files -/

/-- The kinds of lines by which a report speaks of single files. -/
inductive LineKind where
  | loaded
  | warning
  | error
  deriving DecidableEq, Repr

namespace LineKind

/-- What all lines of a kind start with. -/
def mark : LineKind → String
  | loaded => "  Loaded: "
  | warning => "WARNING: "
  | error => "ERROR: "

/-- Whether a line is of a kind. -/
def marks (kind : LineKind) (line : String) : Bool :=
  kind.mark.toList.isPrefixOf line.toList

/-- The lines of a kind. -/
def select (kind : LineKind) (lines : List String) : List String :=
  lines.filter kind.marks

/-- The lines of a kind that one file contributes to a report. -/
def about (kind : LineKind) (files : Snapshot) (path : FilePath) : List String :=
  match kind, Grammar.load files path with
  | loaded, .ok g =>
    ["  Loaded: " ++ path.display ++ " (" ++ toString g.size ++ " rules, start '" ++ g.start ++
      "')"]
  | warning, .ok g => g.lint.map fun w => "WARNING: " ++ path.display ++ ": " ++ w.message
  | error, .error cause => ["ERROR: " ++ path.display ++ ": " ++ cause.message]
  | _, _ => []

/-- The lines of a kind in a report on some files. Having found no file is worth a warning. -/
def aboutAll (kind : LineKind) (files : Snapshot) (found : List FilePath) : List String :=
  if kind = warning ∧ found = [] then ["WARNING: No .ron grammar files found"]
  else found.flatMap (kind.about files)

theorem marks_mark_append (kind other : LineKind) (rest : String) :
    kind.marks (other.mark ++ rest) = decide (kind = other) := by
  cases kind <;> cases other <;> simp [marks, mark, List.isPrefixOf]

theorem exists_of_mem_about {kind : LineKind} {files : Snapshot} {path : FilePath} {line : String}
    (h : line ∈ kind.about files path) : ∃ rest, line = kind.mark ++ rest := by
  rw [about.eq_def] at h
  split at h
  · exact ⟨_, by simpa only [String.append_assoc, mark] using List.mem_singleton.mp h⟩
  · obtain ⟨w, -, rfl⟩ := List.mem_map.mp h
    exact ⟨_, by simp only [String.append_assoc]; rfl⟩
  · exact ⟨_, by simpa only [String.append_assoc, mark] using List.mem_singleton.mp h⟩
  · simp at h

theorem marks_of_mem_aboutAll (kind : LineKind) {other : LineKind} {files : Snapshot}
    {found : List FilePath} {line : String} (h : line ∈ other.aboutAll files found) :
    kind.marks line = decide (kind = other) := by
  have hmark : ∃ rest, line = other.mark ++ rest := by
    rw [aboutAll] at h
    split at h
    · rename_i hnone
      obtain rfl := List.mem_singleton.mp h
      obtain rfl := hnone.1
      exact ⟨"No .ron grammar files found", rfl⟩
    · obtain ⟨path, -, hline⟩ := List.mem_flatMap.mp h
      exact exists_of_mem_about hline
  obtain ⟨rest, rfl⟩ := hmark
  exact marks_mark_append kind other rest

/-- Lines of a kind are selected by this kind only. -/
theorem select_aboutAll (kind other : LineKind) (files : Snapshot) (found : List FilePath) :
    kind.select (other.aboutAll files found) =
      if kind = other then kind.aboutAll files found else [] := by
  split
  · rename_i heq
    subst heq
    refine List.filter_eq_self.mpr fun line hline => ?_
    simpa using marks_of_mem_aboutAll kind hline
  · rename_i hne
    refine List.filter_eq_nil_iff.mpr fun line hline => ?_
    simp [marks_of_mem_aboutAll kind hline, hne]

theorem marks_passed (kind : LineKind) : kind.marks "All checks passed!" = false := by
  cases kind <;> decide +kernel

/-! ### Counting them -/

theorem error_aboutAll_ne_nil_iff {files : Snapshot} {found : List FilePath} :
    error.aboutAll files found ≠ [] ↔
      ∃ path ∈ found, ∃ cause, Grammar.load files path = .error cause := by
  rw [aboutAll, if_neg (by simp), ne_eq, List.flatMap_eq_nil_iff]
  push Not
  refine exists_congr fun path => and_congr_right fun _ => ?_
  cases hload : Grammar.load files path <;> simp [about, hload]

theorem warning_aboutAll_ne_nil_iff {files : Snapshot} {found : List FilePath} :
    warning.aboutAll files found ≠ [] ↔
      (∃ path ∈ found, ∃ g, Grammar.load files path = .ok g ∧ g.lint ≠ []) ∨ found = [] := by
  by_cases hfound : found = []
  · simp [aboutAll, hfound]
  · rw [aboutAll, if_neg (by simp [hfound]), ne_eq, List.flatMap_eq_nil_iff, or_iff_left hfound]
    push Not
    refine exists_congr fun path => and_congr_right fun _ => ?_
    cases hload : Grammar.load files path <;> simp [about, hload]

/-- Of every file there is either a line that it was loaded or an error. -/
theorem length_loaded_add_length_error (files : Snapshot) (found : List FilePath) :
    (loaded.aboutAll files found).length + (error.aboutAll files found).length = found.length := by
  rw [aboutAll, if_neg (by simp), aboutAll, if_neg (by simp)]
  induction found with
  | nil => rfl
  | cons path found ih =>
    have hpath : (loaded.about files path).length + (error.about files path).length = 1 := by
      cases hload : Grammar.load files path <;> simp [about, hload]
    simp only [List.flatMap_cons, List.length_append, List.length_cons]
    omega

end LineKind

/-! ### Reports -/

namespace Linter

/-- `IsReport files found lines`: the lines report on some files. -/
structure IsReport (files : Snapshot) (found : List FilePath) (lines : List String) : Prop where
  /-- The lines of each kind are those that the files contribute, in their order. -/
  select_eq : ∀ kind : LineKind, kind.select lines = kind.aboutAll files found
  /-- Every file is counted either by a line that it was loaded or by an error. -/
  length_eq : found.length =
    (LineKind.loaded.select lines).length + (LineKind.error.select lines).length
  /-- All checks are said to have passed if there is nothing else to say. -/
  passed_iff : "All checks passed!" ∈ lines ↔
    LineKind.error.select lines = [] ∧ LineKind.warning.select lines = []
  /-- The last line gives the numbers of the lines above it. -/
  getLast?_eq : lines.getLast? = some ("Summary: " ++ toString found.length ++ " files, " ++
    toString (LineKind.error.select lines).length ++ " errors, " ++
    toString (LineKind.warning.select lines).length ++ " warnings")

theorem filterMap_loadedLine? (files : Snapshot) (found : List FilePath) :
    (found.map (examine files)).filterMap Finding.loadedLine? =
      LineKind.loaded.aboutAll files found := by
  rw [LineKind.aboutAll, if_neg (by simp), List.filterMap_map, List.filterMap_eq_flatMap_toList]
  refine congrArg (fun f => found.flatMap f) (funext fun path => ?_)
  cases hload : Grammar.load files path <;>
    simp [LineKind.about, Finding.loadedLine?, examine, hload]

theorem map_allErrors (files : Snapshot) (found : List FilePath) :
    (allErrors (found.map (examine files))).map ("ERROR: " ++ ·) =
      LineKind.error.aboutAll files found := by
  rw [LineKind.aboutAll, if_neg (by simp), allErrors, List.filterMap_map, List.map_filterMap,
    List.filterMap_eq_flatMap_toList]
  refine congrArg (fun f => found.flatMap f) (funext fun path => ?_)
  cases hload : Grammar.load files path <;>
    simp [LineKind.about, Finding.error?, Finding.remark, examine, hload, String.append_assoc]

theorem map_allWarnings (files : Snapshot) (found : List FilePath) :
    (allWarnings (found.map (examine files))).map ("WARNING: " ++ ·) =
      LineKind.warning.aboutAll files found := by
  by_cases hfound : found = []
  · subst hfound
    rfl
  · rw [LineKind.aboutAll, if_neg (by simp [hfound]), allWarnings,
      if_neg (by simp [hfound]), List.flatMap_map, List.map_flatMap]
    refine congrArg (fun f => found.flatMap f) (funext fun path => ?_)
    cases hload : Grammar.load files path <;>
      simp [LineKind.about, Finding.warnings, Finding.remark, examine, hload, String.append_assoc]

/-- A report in terms of the lines about the files. -/
theorem report_eq (files : Snapshot) (found : List FilePath) :
    report (found.map (examine files)) =
      LineKind.loaded.aboutAll files found ++ ["", "=== Grammar Lint Report ===", ""] ++
      (if LineKind.error.aboutAll files found = [] ∧ LineKind.warning.aboutAll files found = [] then
        ["All checks passed!"] else []) ++
      LineKind.warning.aboutAll files found ++ LineKind.error.aboutAll files found ++
      ["", "Summary: " ++ toString found.length ++ " files, " ++
        toString (LineKind.error.aboutAll files found).length ++ " errors, " ++
        toString (LineKind.warning.aboutAll files found).length ++ " warnings"] := by
  rw [report, filterMap_loadedLine?, ← map_allErrors, ← map_allWarnings]
  simp

theorem select_report (kind : LineKind) (files : Snapshot) (found : List FilePath) :
    kind.select (report (found.map (examine files))) = kind.aboutAll files found := by
  have hempty : kind.marks "" = false := by cases kind <;> decide +kernel
  have htitle : kind.marks "=== Grammar Lint Report ===" = false := by
    cases kind <;> decide +kernel
  have hsummary (rest : String) : kind.marks ("Summary: " ++ rest) = false := by
    cases kind <;> simp [LineKind.marks, LineKind.mark, List.isPrefixOf]
  -- nothing but the lines about the files has a mark, and these are apart by their kinds
  have habout (other : LineKind) := LineKind.select_aboutAll kind other files found
  simp only [LineKind.select] at habout ⊢
  rw [report_eq]
  simp only [List.filter_append, habout, String.append_assoc]
  cases kind <;> simp [hempty, htitle, hsummary, LineKind.marks_passed, apply_ite]

theorem isReport_report (files : Snapshot) (found : List FilePath) :
    IsReport files found (report (found.map (examine files))) where
  select_eq kind := select_report kind files found
  length_eq := by
    rw [select_report, select_report, LineKind.length_loaded_add_length_error]
  passed_iff := by
    have hnotMem (kind : LineKind) : "All checks passed!" ∉ kind.aboutAll files found := by
      intro h
      have hmarks := LineKind.marks_of_mem_aboutAll kind h
      simp [LineKind.marks_passed] at hmarks
    have hsummary (rest : String) : "All checks passed!" ≠ "Summary: " ++ rest := by
      intro h
      simpa using congrArg String.toList h
    rw [select_report, select_report, report_eq]
    simp [hnotMem, hsummary, String.append_assoc]
  getLast?_eq := by
    rw [select_report, select_report, report_eq, List.getLast?_append]
    rfl

/-! ### Runs -/

/-- `IsFailure files strict found`: a run that examined some files fails, because one of them cannot
be loaded or, in strict mode, because there is something to warn of. -/
def IsFailure (files : Snapshot) (strict : Bool) (found : List FilePath) : Prop :=
  (∃ path ∈ found, ∃ cause, Grammar.load files path = .error cause) ∨
    strict = true ∧
      ((∃ path ∈ found, ∃ g, Grammar.load files path = .ok g ∧ g.lint ≠ []) ∨ found = [])

theorem fails_eq_true_iff {files : Snapshot} {strict : Bool} {found : List FilePath} :
    fails strict (found.map (examine files)) = true ↔ IsFailure files strict found := by
  have herrors : allErrors (found.map (examine files)) ≠ [] ↔
      LineKind.error.aboutAll files found ≠ [] := by
    rw [← map_allErrors, ne_eq, ne_eq, List.map_eq_nil_iff]
  have hwarnings : allWarnings (found.map (examine files)) ≠ [] ↔
      LineKind.warning.aboutAll files found ≠ [] := by
    rw [← map_allWarnings, ne_eq, ne_eq, List.map_eq_nil_iff]
  rw [IsFailure, ← LineKind.error_aboutAll_ne_nil_iff, ← LineKind.warning_aboutAll_ne_nil_iff,
    ← herrors, ← hwarnings]
  simp [fails]

section

variable {files : Snapshot} {paths found : List FilePath}

theorem runWith_of_examined (hfound : examined files paths = .ok found) (strict : Bool) :
    runWith files ⟨paths, strict⟩ =
      ⟨if fails strict (found.map (examine files)) then 1 else 0,
        unlines (report (found.map (examine files))), ""⟩ := by
  rw [runWith, hfound]

/-- Nothing that a run leaves behind depends on the order of its arguments. -/
theorem runWith_eq_of_perm (h : ∀ path ∈ paths, files.HasTree path)
    (hfound : examined files paths = .ok found)
    (hspelling : ∀ a ∈ found, ∀ b ∈ found, a.components = b.components → a = b) (strict : Bool)
    {paths' : List FilePath} (hperm : paths'.Perm paths) :
    runWith files ⟨paths', strict⟩ = runWith files ⟨paths, strict⟩ := by
  have hfound' := examined_eq_of_perm h hfound hspelling hperm
  rw [runWith_of_examined hfound, runWith_of_examined hfound']

end

/-! ### Command lines -/

/-- A word of a command line that can only be a path. -/
structure IsPathWord (word : String) : Prop where
  ne_empty : word ≠ ""
  head?_ne_hyphen : word.toList.head? ≠ some '-'

/-- A command line without anything special: paths, and among them perhaps the switch for strict
mode. -/
structure IsPlain (words : List String) : Prop where
  isPathWord_of_ne : ∀ word ∈ words, word ≠ "--strict" → IsPathWord word
  count_strict_le_one : words.count "--strict" ≤ 1
  exists_ne_strict : ∃ word ∈ words, word ≠ "--strict"

theorem IsPlain.of_perm {words words' : List String} (h : IsPlain words)
    (hperm : words'.Perm words) : IsPlain words' :=
  { isPathWord_of_ne := fun word hword => h.isPathWord_of_ne word (hperm.mem_iff.mp hword)
    count_strict_le_one := hperm.count_eq "--strict" ▸ h.count_strict_le_one
    exists_ne_strict := by
      obtain ⟨word, hword, hne⟩ := h.exists_ne_strict
      exact ⟨word, hperm.mem_iff.mpr hword, hne⟩ }

/-- How a word of such a command line is understood. -/
def argumentOf (word : String) : Argument :=
  if word = "--strict" then .option "strict" none else .operand word

theorem readWord_of_isPathWord {word : String} (h : IsPathWord word) :
    usage.readWord word = ([.operand word], .any) := by
  have hhead := h.head?_ne_hyphen
  rw [Usage.readWord]
  split <;> simp_all

theorem scan_of_isPathWord {words : List String}
    (h : ∀ word ∈ words, word ≠ "--strict" → IsPathWord word) :
    usage.scan .any words = (words.map argumentOf, none) := by
  induction words with
  | nil => rfl
  | cons word words ih =>
    have ⟨hword, hwords⟩ := List.forall_mem_cons.mp h
    have hstrict : usage.readWord "--strict" = ([.option "strict" none], .any) := by decide +kernel
    have hread : usage.readWord word = ([argumentOf word], .any) := by
      by_cases heq : word = "--strict"
      · rw [argumentOf, if_pos heq, heq, hstrict]
      · rw [argumentOf, if_neg heq, readWord_of_isPathWord (hword heq)]
    simp only [Usage.scan, hread, ih hwords]
    rfl

theorem operands_map_argumentOf (words : List String) :
    Argument.operands (words.map argumentOf) = words.filter (· != "--strict") := by
  induction words with
  | nil => rfl
  | cons word words ih =>
    by_cases h : word = "--strict" <;> simp_all [Argument.operands, argumentOf]

theorem count_map_argumentOf (words : List String) :
    Argument.count (words.map argumentOf) "strict" = words.count "--strict" := by
  rw [Argument.count, List.count, List.countP_map]
  refine List.countP_congr fun word _ => ?_
  by_cases h : word = "--strict" <;> simp [argumentOf, h]

/-- Such a command line gives its paths, in their order, and whether the switch is among them. -/
theorem parse_of_isPlain {words : List String} (h : IsPlain words) :
    parse words = .ok ⟨(words.filter (· != "--strict")).map FilePath.ofText,
      decide ("--strict" ∈ words)⟩ := by
  have hscan := scan_of_isPathWord h.isPathWord_of_ne
  have hrepetition : usage.noRepetition (words.map argumentOf) = true := by
    simp [Usage.noRepetition, usage, count_map_argumentOf, h.count_strict_le_one]
  have hsurplus : usage.noSurplus (words.map argumentOf) = true := rfl
  have hnonempty : ((words.filter (· != "--strict")).all (· != "")) = true := by
    simpa using fun word hword =>
      or_iff_not_imp_left.mpr fun hne => (h.isPathWord_of_ne word hword hne).ne_empty
  have hsettings : settings? (words.map argumentOf) =
      some ⟨(words.filter (· != "--strict")).map FilePath.ofText, decide ("--strict" ∈ words)⟩ := by
    rw [settings?, operands_map_argumentOf, count_map_argumentOf, if_pos hnonempty]
    simp only [List.count_pos_iff]
  have hpaths : ((words.filter (· != "--strict")).map FilePath.ofText).isEmpty = false := by
    obtain ⟨word, hword, hne⟩ := h.exists_ne_strict
    have hmem : word ∈ words.filter (· != "--strict") := List.mem_filter.mpr ⟨hword, by simpa⟩
    simpa using List.ne_nil_of_mem hmem
  rw [parse, Usage.parse, hscan]
  simp only [hrepetition, hsurplus, hsettings, hpaths, Bool.and_true, Bool.not_false, if_true]

/-- The words of such a command line may come in any order, if no two spellings of one path are
examined. -/
theorem run_eq_of_perm {files : Snapshot} {words words' : List String} (hplain : IsPlain words)
    (h : ∀ path ∈ pathsOf words, files.HasTree path) {found : List FilePath}
    (hfound : examined files (pathsOf words) = .ok found)
    (hspelling : ∀ a ∈ found, ∀ b ∈ found, a.components = b.components → a = b)
    (hperm : words'.Perm words) : run files words' = run files words := by
  have hparse := parse_of_isPlain hplain
  have hstrict : decide ("--strict" ∈ words') = decide ("--strict" ∈ words) :=
    decide_eq_decide.mpr hperm.mem_iff
  have hpaths := (hperm.filter (· != "--strict")).map FilePath.ofText
  rw [pathsOf, hparse] at h hfound
  rw [run, run, hparse, parse_of_isPlain (hplain.of_perm hperm), hstrict]
  exact runWith_eq_of_perm h hfound hspelling _ hpaths

/-- **The verdict.** If every argument names a file or a directory, then a run examines the files
that the arguments cover, each once for each of these arguments, in the order of their paths. It
writes a report on them and nothing else. It fails exactly if one of them cannot be loaded or, in
strict mode, if there is a warning. Where no two spellings of one path are examined, the arguments
may come in any order. -/
theorem runWith_of_hasTree {files : Snapshot} {paths : List FilePath}
    (h : ∀ path ∈ paths, files.HasTree path) (strict : Bool) :
    ∃ found lines,
      (∀ file, found.count file = paths.countP fun path => decide (Covers files path file)) ∧
      (found.Pairwise fun a b => a.precedes b) ∧
      IsReport files found lines ∧
      (runWith files ⟨paths, strict⟩).output = unlines lines ∧
      (runWith files ⟨paths, strict⟩).errors = "" ∧
      ((runWith files ⟨paths, strict⟩).code = 1 ↔ IsFailure files strict found) ∧
      ((runWith files ⟨paths, strict⟩).code = 0 ↔ ¬ IsFailure files strict found) ∧
      ((∀ a ∈ found, ∀ b ∈ found, a.components = b.components → a = b) →
        ∀ paths' : List FilePath, paths'.Perm paths →
          runWith files ⟨paths', strict⟩ = runWith files ⟨paths, strict⟩) ∧
      ∀ words, parse words = .ok ⟨paths, strict⟩ →
        run files words = runWith files ⟨paths, strict⟩ := by
  obtain ⟨found, hfound, hcount, hsorted⟩ := exists_examined h
  have hrun := runWith_of_examined hfound strict
  refine ⟨found, report (found.map (examine files)), hcount, hsorted, isReport_report files found,
    ?_, ?_, ?_, ?_, ?_, ?_⟩
  · rw [hrun]
  · rw [hrun]
  · rw [hrun, ← fails_eq_true_iff]
    simp
  · rw [hrun, ← fails_eq_true_iff]
    simp
  · exact fun hspelling paths' hperm => runWith_eq_of_perm h hfound hspelling strict hperm
  · intro words hwords
    rw [run, hwords]

/-- Two directories with grammars, one of them within the other and with the name of a grammar, and
beside them a grammar without an extension. One of the grammars is a link that leads nowhere. -/
def orchard : FileNode :=
  .directory [
    (Utf8.encode "apples", .directory [
      (Utf8.encode "old.ron", .directory [
        (Utf8.encode "notes.txt", .file []),
        (Utf8.encode "lost.ron", .unreadable .nothing .notFound),
        (Utf8.encode "pip.ron", .file (Utf8.encode "no rules"))]),
      (Utf8.encode "tree.ron", .file
        (Utf8.encode (GrammarText.write (some "Tree") [("Tree", ["{noun}"])])))]),
    (Utf8.encode "stem", .file
      (Utf8.encode (GrammarText.write (some "Stem") [("Stem", ["stem"])])))]

theorem isTree_orchard : orchard.IsTree := by
  refine .directory (by decide +kernel) (by decide +kernel) ?_
  simp only [List.forall_mem_cons]
  refine ⟨.directory (by decide +kernel) (by decide +kernel) ?_, .file _, by simp⟩
  simp only [List.forall_mem_cons]
  refine ⟨.directory (by decide +kernel) (by decide +kernel) ?_, .file _, by simp⟩
  simp [FileNode.IsTree.file, FileNode.IsTree.unreadable]

/-- The outer directory, the grammar beside it, and the inner directory once more. -/
def orchardPaths : List FilePath :=
  ["apples", "stem", "apples/old.ron"].map Utf8.encode

theorem hasTree_of_mem_orchardPaths :
    ∀ path ∈ orchardPaths, (Snapshot.ofTree orchard).HasTree path := by
  have hfind : ∀ path ∈ orchardPaths,
      (orchard.find path).toOption.any (·.kind != .nothing) = true := by decide +kernel
  intro path hpath
  have hkind := hfind path hpath
  cases hnode : orchard.find path with
  | error cause =>
    rw [hnode] at hkind
    cases hkind
  | ok node =>
    rw [hnode] at hkind
    exact Snapshot.hasTree_ofTree isTree_orchard ⟨node, hnode, bne_iff_ne.mp hkind⟩

/-- Whatever the order of the arguments, the run fails: two of them cover a file without rules, and
the link that leads nowhere. -/
theorem runWith_of_hasTree_orchard :
    (∀ path ∈ orchardPaths, (Snapshot.ofTree orchard).HasTree path) ∧
    ∃ found lines,
      List.count (Utf8.encode "apples/old.ron/pip.ron") found = 2 ∧
      List.count (Utf8.encode "apples/old.ron/lost.ron") found = 2 ∧
      List.count (Utf8.encode "apples/old.ron/notes.txt") found = 0 ∧
      List.count (Utf8.encode "stem") found = 1 ∧
      IsReport (Snapshot.ofTree orchard) found lines ∧
      ∀ paths' : List FilePath, paths'.Perm orchardPaths →
        runWith (Snapshot.ofTree orchard) ⟨paths', false⟩ = ⟨1, unlines lines, ""⟩ := by
  obtain ⟨found, lines, hcount, -, hreport, houtput, herrors, hone, -, horder, -⟩ :=
    runWith_of_hasTree hasTree_of_mem_orchardPaths false
  have hpip : found.count (Utf8.encode "apples/old.ron/pip.ron") = 2 := by
    rw [hcount]
    decide +kernel
  have hlost : found.count (Utf8.encode "apples/old.ron/lost.ron") = 2 := by
    rw [hcount]
    decide +kernel
  have hnotes : found.count (Utf8.encode "apples/old.ron/notes.txt") = 0 := by
    rw [hcount]
    decide +kernel
  have hstem : found.count (Utf8.encode "stem") = 1 := by
    rw [hcount]
    decide +kernel
  have hload : ∃ cause, Grammar.load (Snapshot.ofTree orchard)
      (Utf8.encode "apples/old.ron/pip.ron") = .error cause := by
    have herror : (Grammar.load (Snapshot.ofTree orchard)
        (Utf8.encode "apples/old.ron/pip.ron")).isOk = false := by decide +kernel
    generalize Grammar.load (Snapshot.ofTree orchard)
      (Utf8.encode "apples/old.ron/pip.ron") = result at herror
    cases result with
    | error cause => exact ⟨cause, rfl⟩
    | ok g => simp [Except.isOk, Except.toBool] at herror
  have hcode := hone.mpr (.inl ⟨_, List.count_pos_iff.mp (by rw [hpip]; decide), hload⟩)
  -- the files that can be examined are few, so their spellings can be compared one by one
  have hmem : ∀ file ∈ found, file ∈
      orchardPaths.flatMap fun path => (filesOf? (Snapshot.ofTree orchard) path).getD [] := by
    intro file hfile
    have hpos : 0 < found.count file := List.count_pos_iff.mpr hfile
    rw [hcount, List.countP_pos_iff] at hpos
    obtain ⟨path, hpath, hcovers⟩ := hpos
    exact List.mem_flatMap.mpr ⟨path, hpath, mem_filesOf?_iff.mpr (of_decide_eq_true hcovers)⟩
  have hspelling : ∀ a ∈ orchardPaths.flatMap fun path =>
      (filesOf? (Snapshot.ofTree orchard) path).getD [],
      ∀ b ∈ orchardPaths.flatMap fun path => (filesOf? (Snapshot.ofTree orchard) path).getD [],
      a.components = b.components → a = b := by
    decide +kernel
  have houtcome : runWith (Snapshot.ofTree orchard) ⟨orchardPaths, false⟩ =
      ⟨1, unlines lines, ""⟩ := by
    rw [← hcode, ← houtput, ← herrors]
  refine ⟨hasTree_of_mem_orchardPaths, found, lines, hpip, hlost, hnotes, hstem, hreport,
    fun paths' hperm => ?_⟩
  rw [horder (fun a ha b hb => hspelling a (hmem a ha) b (hmem b hb)) paths' hperm, houtcome]

end Linter

end RandomSentences
