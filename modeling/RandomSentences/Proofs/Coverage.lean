import Mathlib.Data.List.Basic
import Mathlib.Data.List.Flatten
import Mathlib.Data.List.Nodup
import Mathlib.Data.List.TakeWhile
import RandomSentences.CommandLine.Linter
import RandomSentences.Files.Tree

/-!
# The files that the linter examines

An argument of the linter that names a file stands for this file, and one that names a directory
for all in it, at any depth, that has the name of a grammar and is no directory. `Linter.Covers`
says so without a word about the order of a walk: `FileNode.Holds` follows names down a tree, and
`FileName.HasExtension` says what a name ends in. Whether a file can be read does not matter here,
and below a directory that cannot be read nothing is held.

`Linter.mem_filesOf?_iff` says that the walk finds the files covered and no others. That it finds
none of them twice needs more. A path is only a list of bytes, so names that hold slashes would
be lost in it; `FileNode.IsTree` asks of a directory what every file system gives, and then
different names lead to different paths (`FilePath.joinAll_inj`).

`Linter.exists_examined` puts the arguments of a run together: the files examined stand in the
order of their paths, each as often as there are arguments that cover it. Where no two spellings
of one path are among them, they do not depend on the order of the arguments
(`Linter.examined_eq_of_perm`).
-/

namespace RandomSentences

/-! ### Names -/

namespace FileName

/-- `name.HasExtension extension`: the name is some stem, a dot and then the extension. -/
def HasExtension (name : FileName) (extension : String) : Prop :=
  ∃ stem, stem ≠ [] ∧ name = stem ++ dot :: Utf8.encode extension

/-- What may be the name of an entry of a directory. -/
structure IsEntryName (name : FileName) : Prop where
  ne_nil : name ≠ []
  slash_notMem : slash ∉ name

instance (name : FileName) : Decidable name.IsEntryName :=
  decidable_of_iff (name ≠ [] ∧ slash ∉ name) ⟨fun h => ⟨h.1, h.2⟩, fun h => ⟨h.1, h.2⟩⟩

theorem splitExtension_append {stem extension : FileName} (hstem : stem ≠ [])
    (hdot : dot ∉ extension) :
    splitExtension (stem ++ dot :: extension) = (stem, some extension) := by
  have hpos : ∀ b ∈ extension.reverse, (b != dot) = true := by
    intro b hb
    simpa using ne_of_mem_of_not_mem (List.mem_reverse.mp hb) hdot
  obtain ⟨c, cs, hcs⟩ := List.exists_cons_of_ne_nil (mt List.reverse_eq_nil_iff.mp hstem)
  have hname : stem = (c :: cs).reverse := by rw [← hcs, List.reverse_reverse]
  simp [splitExtension, List.takeWhile_append_of_pos hpos, List.dropWhile_append_of_pos hpos, hname]

/-- The extension of a name is what follows its last dot, if something precedes it. -/
theorem extension?_eq_some_iff {name extension : FileName} :
    name.extension? = some extension ↔
      dot ∉ extension ∧ ∃ stem, stem ≠ [] ∧ name = stem ++ dot :: extension := by
  constructor
  · intro h
    rw [extension?, splitExtension] at h
    -- read backwards, the name is an extension without a dot, then a dot, then what must be a stem
    have hname := List.takeWhile_append_dropWhile (p := (· != dot)) (l := name.reverse)
    cases hdrop : name.reverse.dropWhile (· != dot) with
    | nil => simp [hdrop] at h
    | cons b rest =>
      have hb : b = dot := by simpa [hdrop] using List.head?_dropWhile_not (· != dot) name.reverse
      cases rest with
      | nil => simp [hdrop] at h
      | cons c cs =>
        obtain rfl : (name.reverse.takeWhile (· != dot)).reverse = extension := by
          simpa [hdrop] using h
        refine ⟨fun hmem => ?_, (c :: cs).reverse, by simp, ?_⟩
        · simpa using List.mem_takeWhile_imp (List.mem_reverse.mp hmem)
        · rw [hdrop, hb] at hname
          simpa using congrArg List.reverse hname.symm
  · rintro ⟨hdot, stem, hstem, rfl⟩
    rw [extension?, splitExtension_append hstem hdot]

end FileName

theorem Linter.isGrammarName_iff {name : FileName} :
    isGrammarName name = true ↔ name.HasExtension "ron" := by
  have hdot : dot ∉ Utf8.encode "ron" := by decide +kernel
  rw [isGrammarName, beq_iff_eq, FileName.extension?_eq_some_iff, FileName.HasExtension]
  simp only [hdot, not_false_eq_true, true_and]

/-! ### Trees -/

namespace FileNode

/-- A property of trees holds if it holds of files, of what cannot be read, and of directories whose
entries have it. -/
@[elab_as_elim]
theorem induction {motive : FileNode → Prop} (file : ∀ content, motive (.file content))
    (directory : ∀ entries, (∀ entry ∈ entries, motive entry.2) → motive (.directory entries))
    (unreadable : ∀ kind cause, motive (.unreadable kind cause)) :
    ∀ node, motive node
  | .file content => file content
  | .unreadable kind cause => unreadable kind cause
  | .directory entries => directory entries fun entry hentry => by
    have hnode : sizeOf entry.2 < sizeOf entry := by
      obtain ⟨name, child⟩ := entry
      change sizeOf child < sizeOf (name, child)
      rw [Prod.mk.sizeOf_spec]
      omega
    have hsize : sizeOf entry < sizeOf entries := List.sizeOf_lt_of_mem hentry
    exact induction file directory unreadable entry.2
termination_by node => sizeOf node
decreasing_by
  rw [FileNode.directory.sizeOf_spec]
  omega

/-- `node.Holds names below`: following the names from a node, entry by entry, leads to `below`. -/
inductive Holds : FileNode → List FileName → FileNode → Prop
  | here (node : FileNode) : Holds node [] node
  | entry {entries : List (FileName × FileNode)} {name : FileName} {child below : FileNode}
      {names : List FileName} (hmem : (name, child) ∈ entries) (h : Holds child names below) :
      Holds (.directory entries) (name :: names) below

/-- Nothing but itself is held by what has no entries. -/
theorem Holds.here_of_entries_eq_error {node below : FileNode} {names : List FileName}
    {cause : FileError} (hnode : node.entries = .error cause) (h : node.Holds names below) :
    names = [] ∧ below = node := by
  cases h with
  | here => exact ⟨rfl, rfl⟩
  | entry => cases hnode

theorem entries_eq_ok_iff {node : FileNode} {entries : List (FileName × FileNode)} :
    node.entries = .ok entries ↔ node = directory entries := by
  rcases node with content | entries' | ⟨⟨⟩, cause⟩ <;> simp [FileNode.entries]

/-- A tree as file systems have them: the entries of each directory have names that tell them
apart. -/
inductive IsTree : FileNode → Prop
  | file (content : List UInt8) : IsTree (.file content)
  | unreadable (kind : FileKind) (cause : FileError) : IsTree (.unreadable kind cause)
  | directory {entries : List (FileName × FileNode)} (hnodup : (entries.map Prod.fst).Nodup)
      (hname : ∀ entry ∈ entries, entry.1.IsEntryName) (htree : ∀ entry ∈ entries, IsTree entry.2) :
      IsTree (.directory entries)

/-- The names that lead down a tree are names of entries. -/
theorem IsTree.isEntryName_of_holds {node below : FileNode} {names : List FileName}
    (htree : node.IsTree) (h : node.Holds names below) : ∀ name ∈ names, name.IsEntryName := by
  induction h with
  | here => simp
  | entry hmem _ ih =>
    obtain - | - | ⟨-, hname, hchildren⟩ := htree
    exact List.forall_mem_cons.mpr ⟨hname _ hmem, ih (hchildren _ hmem)⟩

theorem isTree_directory_nil : (directory []).IsTree :=
  .directory (by simp) (by simp) (by simp)

/-- Whatever path is followed from a tree within trees, it leads to a tree. -/
theorem IsTree.of_follow {above : List FileNode} {node below : FileNode}
    {components : List PathComponent} (habove : ∀ parent ∈ above, parent.IsTree)
    (hnode : node.IsTree) (h : follow above node components = .ok below) : below.IsTree := by
  fun_induction follow above node components with
  | case1 =>
    obtain rfl := Except.ok.inj h
    exact hnode
  | case2 _ _ _ ih => exact ih (by simp) isTree_directory_nil h
  | case3 _ _ _ ih => exact ih habove hnode h
  | case5 _ _ _ _ ih => exact ih (by simp) isTree_directory_nil h
  | case6 _ _ _ _ parent above ih =>
    have ⟨hparent, habove⟩ := List.forall_mem_cons.mp habove
    exact ih habove hparent h
  | case10 _ node name _ entries hentries _ child hchild ih =>
    obtain ⟨before, after, hsplit, -⟩ := List.lookup_eq_some_iff.mp hchild
    have hmem : (name, child) ∈ entries := by simp [hsplit]
    have hchildTree : child.IsTree := by
      obtain rfl := entries_eq_ok_iff.mp hentries
      obtain - | - | ⟨-, -, hchildren⟩ := hnode
      exact hchildren _ hmem
    exact ih (List.forall_mem_cons.mpr ⟨hnode, habove⟩) hchildTree h
  | case4 | case7 | case8 | case9 => cases h

theorem IsTree.of_find {root node : FileNode} {path : FilePath} (hroot : root.IsTree)
    (h : root.find path = .ok node) : node.IsTree := by
  have hfollow : follow [] root path.components = .ok node := by grind [find]
  exact IsTree.of_follow (by simp) hroot hfollow

end FileNode

/-- `files.HasTree path`: a file or a directory stands at the path, and it is a tree. -/
def Snapshot.HasTree (files : Snapshot) (path : FilePath) : Prop :=
  ∃ node, files.lookup path = .ok node ∧ node.kind ≠ .nothing ∧ node.IsTree

theorem Snapshot.hasTree_ofTree {root : FileNode} (hroot : root.IsTree) {path : FilePath}
    (h : ∃ node, root.find path = .ok node ∧ node.kind ≠ .nothing) :
    (ofTree root).HasTree path := by
  obtain ⟨node, hnode, hkind⟩ := h
  exact ⟨node, hnode, hkind, hroot.of_find hnode⟩

/-! ### Paths -/

namespace FilePath

/-- The path that names lead to from a directory. -/
def joinAll (directory : FilePath) (names : List FileName) : FilePath :=
  names.foldl join directory

@[simp]
theorem joinAll_nil (directory : FilePath) : directory.joinAll [] = directory := rfl

@[simp]
theorem joinAll_cons (directory : FilePath) (name : FileName) (names : List FileName) :
    directory.joinAll (name :: names) = (directory.join name).joinAll names := rfl

/-- The paths of the entries of a directory differ in what follows a common start. -/
theorem exists_join_eq_append (directory : FilePath) :
    ∃ start, ∀ name, directory.join name = start ++ name := by
  by_cases h : directory.isEmpty ∨ directory.getLast? = some slash
  · exact ⟨directory, fun name => by rw [join, if_pos h]⟩
  · refine ⟨directory ++ [slash], fun name => ?_⟩
    rw [join, if_neg h, List.append_assoc, List.singleton_append]

/-- Behind the name of an entry stands a slash before the next name. -/
theorem join_join (directory : FilePath) {name : FileName} (hname : name.IsEntryName)
    (next : FileName) : (directory.join name).join next = directory.join name ++ slash :: next := by
  obtain ⟨start, hstart⟩ := exists_join_eq_append directory
  obtain ⟨first, b, rfl⟩ := name.eq_nil_or_concat'.resolve_left hname.ne_nil
  have hb : b ≠ slash := fun h => hname.slash_notMem (by simp [h])
  rw [hstart, join, if_neg (by simp [hb])]

theorem joinAll_eq_append (directory : FilePath) {name : FileName} {names : List FileName}
    (hnames : ∀ n ∈ name :: names, n.IsEntryName) :
    directory.joinAll (name :: names) =
      directory.join name ++ names.flatMap fun next => slash :: next := by
  induction names generalizing directory name with
  | nil => rw [joinAll_cons, joinAll_nil, List.flatMap_nil, List.append_nil]
  | cons next names ih =>
    have ⟨hname, hrest⟩ := List.forall_mem_cons.mp hnames
    rw [joinAll_cons, ih (directory.join name) hrest, join_join directory hname next]
    simp

/-- Cutting at slashes gives names back. -/
theorem pieces_append_flatMap {name : FileName} {names : List FileName}
    (hnames : ∀ n ∈ name :: names, n.IsEntryName) :
    pieces (name ++ names.flatMap fun next => slash :: next) = name :: names := by
  have hcut : ∀ n : FileName, n.IsEntryName → ∀ b ∈ n, (b == slash) = false := by
    intro n hn b hb
    simpa using ne_of_mem_of_not_mem hb hn.slash_notMem
  induction names generalizing name with
  | nil =>
    have hname := hcut name (hnames name (by simp))
    simpa [pieces] using Text.pieces_of_forall hname
  | cons next names ih =>
    have ⟨hname, hrest⟩ := List.forall_mem_cons.mp hnames
    rw [List.flatMap_cons, List.cons_append, pieces,
      Text.pieces_append_cons _ (hcut name hname) (by simp)]
    exact congrArg _ (ih hrest)

/-- Different names lead to different paths. -/
theorem joinAll_inj (directory : FilePath) {names others : List FileName}
    (hne : names ≠ []) (hne' : others ≠ []) (hnames : ∀ name ∈ names, name.IsEntryName)
    (hothers : ∀ name ∈ others, name.IsEntryName)
    (h : directory.joinAll names = directory.joinAll others) : names = others := by
  obtain ⟨name, names, rfl⟩ := List.exists_cons_of_ne_nil hne
  obtain ⟨other, others, rfl⟩ := List.exists_cons_of_ne_nil hne'
  obtain ⟨start, hstart⟩ := exists_join_eq_append directory
  rw [joinAll_eq_append directory hnames, joinAll_eq_append directory hothers, hstart, hstart,
    List.append_assoc, List.append_assoc] at h
  rw [← pieces_append_flatMap hnames, List.append_cancel_left h, pieces_append_flatMap hothers]

end FilePath

/-! ### The walk through a directory -/

namespace Linter

theorem directoryFiles_eq_flatMap (path : FilePath) (entries : List (FileName × FileNode)) :
    directoryFiles path entries = entries.flatMap fun entry => entryFiles path entry.1 entry.2 := by
  induction entries with
  | nil => simp [directoryFiles]
  | cons entry entries ih => simp [directoryFiles, ih]

section

variable {node : FileNode} {path file : FilePath} {name : FileName}

theorem entryFiles_of_kind_ne (hkind : node.kind ≠ .directory) :
    entryFiles path name node = if isGrammarName name then [path.join name] else [] := by
  rcases node with content | entries | ⟨⟨⟩, cause⟩ <;> first | rfl | exact absurd rfl hkind

theorem nodup_entryFiles_of_kind_ne (hkind : node.kind ≠ .directory) :
    (entryFiles path name node).Nodup := by
  rw [entryFiles_of_kind_ne hkind]
  split <;> simp

/-- What has no entries is the only file at it, unless it is taken for a directory. -/
theorem mem_entryFiles_of_entries_eq_error {cause : FileError}
    (hnode : node.entries = .error cause) :
    file ∈ entryFiles path name node ↔
      node.kind ≠ .directory ∧ name.HasExtension "ron" ∧ file = path.join name := by
  by_cases hkind : node.kind = .directory
  · rcases node with content | entries | ⟨kind, cause⟩
    · cases hkind
    · cases hnode
    · obtain rfl : kind = .directory := hkind
      simp [entryFiles, FileNode.kind]
  · rw [entryFiles_of_kind_ne hkind, ← isGrammarName_iff]
    simp [hkind]

/-- The files at an entry are those that names lead to from it, if the last name, which may be that
of the entry itself, is the name of a grammar. -/
theorem mem_entryFiles_iff :
    file ∈ entryFiles path name node ↔
      ∃ names last below, node.Holds names below ∧ below.kind ≠ .directory ∧
        (name :: names).getLast? = some last ∧ last.HasExtension "ron" ∧
        file = path.joinAll (name :: names) := by
  have hleaf {node : FileNode} {path : FilePath} {name : FileName} {cause : FileError}
      (hnode : node.entries = .error cause) : file ∈ entryFiles path name node ↔
        ∃ names last below, node.Holds names below ∧ below.kind ≠ .directory ∧
          (name :: names).getLast? = some last ∧ last.HasExtension "ron" ∧
          file = path.joinAll (name :: names) := by
    rw [mem_entryFiles_of_entries_eq_error hnode]
    constructor
    · rintro ⟨hkind, hext, rfl⟩
      exact ⟨[], name, node, .here _, hkind, rfl, hext, rfl⟩
    · rintro ⟨names, last, below, h, hkind, hlast, hext, rfl⟩
      obtain ⟨rfl, rfl⟩ := h.here_of_entries_eq_error hnode
      obtain rfl : name = last := by simpa using hlast
      exact ⟨hkind, hext, rfl⟩
  induction node using FileNode.induction generalizing path name with
  | file content => exact hleaf rfl
  | unreadable kind cause => cases kind <;> exact hleaf rfl
  | directory entries ih =>
    rw [entryFiles, directoryFiles_eq_flatMap, List.mem_flatMap]
    constructor
    · rintro ⟨entry, hentry, hfile⟩
      obtain ⟨names, last, below, h, hkind, hlast, hext, rfl⟩ := (ih entry hentry).mp hfile
      exact ⟨entry.1 :: names, last, below, .entry hentry h, hkind, by simpa using hlast, hext, rfl⟩
    · rintro ⟨names, last, below, - | ⟨hmem, h⟩, hkind, hlast, hext, rfl⟩
      · exact absurd rfl hkind
      · exact ⟨_, hmem,
          (ih _ hmem).mpr ⟨_, last, below, h, hkind, by simpa using hlast, hext, rfl⟩⟩

/-- The files of a directory are those that names lead to from it, if the last one is the name of a
grammar. -/
theorem mem_directoryFiles_iff {entries : List (FileName × FileNode)} :
    file ∈ directoryFiles path entries ↔
      ∃ names last below, (FileNode.directory entries).Holds names below ∧
        below.kind ≠ .directory ∧ names.getLast? = some last ∧ last.HasExtension "ron" ∧
        file = path.joinAll names := by
  rw [directoryFiles_eq_flatMap, List.mem_flatMap]
  constructor
  · rintro ⟨entry, hentry, hfile⟩
    obtain ⟨names, last, below, h, hkind, hlast, hext, rfl⟩ := mem_entryFiles_iff.mp hfile
    exact ⟨entry.1 :: names, last, below, .entry hentry h, hkind, hlast, hext, rfl⟩
  · rintro ⟨names, last, below, - | ⟨hmem, h⟩, hkind, hlast, hext, rfl⟩
    · exact absurd rfl hkind
    · exact ⟨_, hmem, mem_entryFiles_iff.mpr ⟨_, last, below, h, hkind, hlast, hext, rfl⟩⟩

end

/-- Entries of different names have no file in common. -/
theorem disjoint_entryFiles {path : FilePath} {name other : FileName} {node node' : FileNode}
    (hne : name ≠ other) (hname : name.IsEntryName) (hother : other.IsEntryName)
    (htree : node.IsTree) (htree' : node'.IsTree) :
    (entryFiles path name node).Disjoint (entryFiles path other node') := by
  intro file hfile hfile'
  obtain ⟨names, -, below, h, -, -, -, rfl⟩ := mem_entryFiles_iff.mp hfile
  obtain ⟨others, -, below', h', -, -, -, heq⟩ := mem_entryFiles_iff.mp hfile'
  have hnames := List.forall_mem_cons.mpr ⟨hname, htree.isEntryName_of_holds h⟩
  have hothers := List.forall_mem_cons.mpr ⟨hother, htree'.isEntryName_of_holds h'⟩
  have := path.joinAll_inj (by simp) (by simp) hnames hothers heq
  exact hne (List.cons.inj this).1

/-- No file of a directory is found twice. -/
theorem nodup_directoryFiles {entries : List (FileName × FileNode)}
    (h : (FileNode.directory entries).IsTree) (path : FilePath) :
    (directoryFiles path entries).Nodup := by
  generalize hnode : FileNode.directory entries = node at h
  induction h generalizing entries path with
  | file | unreadable => cases hnode
  | directory hnodup hname htree ih =>
    cases hnode
    rw [directoryFiles_eq_flatMap, List.nodup_flatMap]
    constructor
    -- within one entry by induction, and across entries because their names are in the paths
    · rintro ⟨name, child⟩ hentry
      rcases child with content | entries' | ⟨⟨⟩, cause⟩
      case directory => exact ih _ hentry (path.join name) rfl
      case unreadable.directory => simp [entryFiles]
      all_goals exact nodup_entryFiles_of_kind_ne (by simp [FileNode.kind])
    · refine (List.pairwise_map.mp hnodup).imp_of_mem fun ha hb hne => ?_
      exact disjoint_entryFiles hne (hname _ ha) (hname _ hb) (htree _ ha) (htree _ hb)

/-! ### The files of an argument -/

/-- `Covers files argument file`: an argument stands for a file, either because it is the path of
the file, whatever its name, or because it is the path of a directory in which, at some depth,
something that is no directory has this path and the name of a grammar. -/
inductive Covers (files : Snapshot) (argument : FilePath) : FilePath → Prop
  | file {node : FileNode} (h : files.lookup argument = .ok node) (hkind : node.kind = .file) :
      Covers files argument argument
  | directory {node below : FileNode} {names : List FileName} {last : FileName}
      (h : files.lookup argument = .ok node) (hholds : node.Holds names below)
      (hkind : below.kind ≠ .directory) (hlast : names.getLast? = some last)
      (hext : last.HasExtension "ron") :
      Covers files argument (argument.joinAll names)

/-- The files found for an argument are those that it covers. -/
theorem mem_filesOf?_iff {files : Snapshot} {argument file : FilePath} :
    file ∈ (filesOf? files argument).getD [] ↔ Covers files argument file := by
  rw [filesOf?]
  constructor
  · intro hfile
    cases h : files.lookup argument with
    | error => simp [h] at hfile
    | ok node =>
      rw [h] at hfile
      cases hkind : node.kind with
      | nothing => simp [hkind] at hfile
      | file =>
        obtain rfl : file = argument := by simpa [hkind] using hfile
        exact .file h hkind
      | directory =>
        have hfile : file ∈ directoryFiles argument node.listing := by simpa [hkind] using hfile
        rcases node with content | entries | ⟨kind, cause⟩
        case directory =>
          obtain ⟨names, last, below, hholds, hbelow, hlast, hext, rfl⟩ :=
            mem_directoryFiles_iff.mp hfile
          exact .directory h hholds hbelow hlast hext
        -- nothing else is listed
        all_goals simp [FileNode.listing, directoryFiles] at hfile
  · rintro (⟨h, hkind⟩ | ⟨h, hholds, hbelow, hlast, hext⟩)
    · simp [h, hkind]
    · rw [h]
      cases hholds with
      | here => cases hlast
      | entry hmem hrest =>
        exact mem_directoryFiles_iff.mpr
          ⟨_, _, _, .entry hmem hrest, hbelow, hlast, hext, rfl⟩

instance (files : Snapshot) (argument file : FilePath) : Decidable (Covers files argument file) :=
  decidable_of_iff _ mem_filesOf?_iff

/-- No file is found twice for one argument. -/
theorem nodup_filesOf? {files : Snapshot} {argument : FilePath} (h : files.HasTree argument) :
    ((filesOf? files argument).getD []).Nodup := by
  obtain ⟨node, hnode, -, htree⟩ := h
  rcases node with content | entries | ⟨⟨⟩, cause⟩
  case directory =>
    have hnodup := nodup_directoryFiles htree argument
    simpa [filesOf?, hnode, FileNode.kind, FileNode.listing] using hnodup
  all_goals simp [filesOf?, hnode, FileNode.kind, FileNode.listing, directoryFiles]

end Linter

/-! ### The order of paths -/

theorem PathComponent.rank_injective : Function.Injective PathComponent.rank := by
  intro a b h
  cases a <;> cases b <;> simp [rank] at h ⊢
  exact List.map_injective_iff.mpr (fun _ _ => UInt8.toNat_inj.mp) h

namespace FilePath

theorem precedes_total (a b : FilePath) : (a.precedes b || b.precedes a) = true := by
  have hswap : compare (b.components.map PathComponent.rank) (a.components.map PathComponent.rank) =
      (compare (a.components.map PathComponent.rank) (b.components.map PathComponent.rank)).swap :=
    Std.OrientedCmp.eq_swap
  rw [precedes, precedes, hswap]
  cases compare (a.components.map PathComponent.rank) (b.components.map PathComponent.rank) <;> rfl

theorem precedes_trans {a b c : FilePath} (hab : a.precedes b = true) (hbc : b.precedes c = true) :
    a.precedes c = true :=
  Std.TransCmp.isLE_trans hab hbc

/-- Paths that precede each other are spellings of one path. -/
theorem components_eq_of_precedes {a b : FilePath} (hab : a.precedes b = true)
    (hba : b.precedes a = true) : a.components = b.components :=
  List.map_injective_iff.mpr PathComponent.rank_injective
    (Std.LawfulEqCmp.eq_of_compare (Std.OrientedCmp.isLE_antisymm hab hba))

theorem pairwise_precedes_mergeSort (paths : List FilePath) :
    (paths.mergeSort precedes).Pairwise fun a b => a.precedes b = true :=
  @List.pairwise_mergeSort _ precedes (fun _ _ _ => precedes_trans) precedes_total paths

end FilePath

namespace Linter

/-! ### The files of a run -/

section

variable {files : Snapshot} {paths : List FilePath}

/-- The files examined if every argument names something. -/
theorem examined_of_hasTree (h : ∀ path ∈ paths, files.HasTree path) :
    examined files paths = .ok
      ((paths.flatMap fun path => (filesOf? files path).getD []).mergeSort FilePath.precedes) := by
  have hnone : (paths.find? fun path => (filesOf? files path).isNone) = none := by
    refine List.find?_eq_none.mpr fun path hpath => ?_
    obtain ⟨node, hnode, hkind, -⟩ := h path hpath
    cases hnodeKind : node.kind with
    | nothing => exact absurd hnodeKind hkind
    | file | directory => simp [filesOf?, hnode, hnodeKind]
  rw [examined, hnone]

/-- Before they are sorted, every file is there once for each argument that covers it. -/
theorem count_flatMap_filesOf? (h : ∀ path ∈ paths, files.HasTree path) (file : FilePath) :
    (paths.flatMap fun path => (filesOf? files path).getD []).count file =
      paths.countP fun path => decide (Covers files path file) := by
  induction paths with
  | nil => simp
  | cons path paths ih =>
    have ⟨hpath, hpaths⟩ := List.forall_mem_cons.mp h
    rw [List.flatMap_cons, List.count_append, ih hpaths, (nodup_filesOf? hpath).count,
      List.countP_cons, Nat.add_comm]
    simp only [mem_filesOf?_iff, decide_eq_true_eq]

/-- The files examined are those that the arguments cover, each once for each of these arguments,
in the order of their paths. -/
theorem exists_examined (h : ∀ path ∈ paths, files.HasTree path) :
    ∃ found, examined files paths = .ok found ∧
      (∀ file, found.count file = paths.countP fun path => decide (Covers files path file)) ∧
      found.Pairwise fun a b => a.precedes b := by
  refine ⟨_, examined_of_hasTree h, fun file => ?_, FilePath.pairwise_precedes_mergeSort _⟩
  rw [(List.mergeSort_perm _ _).count_eq, count_flatMap_filesOf? h]

/-- Arguments in another order give the same files, unless two spellings of one path are among
them: sorting leaves these in the order in which it finds them. -/
theorem examined_eq_of_perm (h : ∀ path ∈ paths, files.HasTree path) {found : List FilePath}
    (hfound : examined files paths = .ok found)
    (hspelling : ∀ a ∈ found, ∀ b ∈ found, a.components = b.components → a = b)
    {paths' : List FilePath} (hperm : paths'.Perm paths) : examined files paths' = .ok found := by
  have h' : ∀ path ∈ paths', files.HasTree path := fun path hpath => h path (hperm.mem_iff.mp hpath)
  rw [examined_of_hasTree h, Except.ok.injEq] at hfound
  subst hfound
  have hfiles := hperm.flatMap_right fun path => (filesOf? files path).getD []
  have hsorted := (List.mergeSort_perm _ FilePath.precedes).trans
    (hfiles.trans (List.mergeSort_perm _ FilePath.precedes).symm)
  rw [examined_of_hasTree h']
  refine congrArg _ (List.Perm.eq_of_pairwise (fun a b ha hb hab hba => ?_)
    (FilePath.pairwise_precedes_mergeSort _) (FilePath.pairwise_precedes_mergeSort _) hsorted)
  exact hspelling a (hsorted.mem_iff.mp ha) b hb (FilePath.components_eq_of_precedes hab hba)

example :
    [Utf8.encode "a//b", Utf8.encode "a/b"].mergeSort FilePath.precedes =
      [Utf8.encode "a//b", Utf8.encode "a/b"] ∧
    [Utf8.encode "a/b", Utf8.encode "a//b"].mergeSort FilePath.precedes =
      [Utf8.encode "a/b", Utf8.encode "a//b"] := by
  constructor <;> cbv

end

end Linter

end RandomSentences
