import RandomSentences.Grammar.Rules

/-!
# The search for cycles

`Rules.visit` walks along the references of a rule map, depth first, from a name. A `Walk` under
way has a *mark* for every name that it has come to, and the *path* of the names whose references
are being followed, newest first. A name without a mark is marked as in progress and put on the
path, its references are followed, and then it is taken off the path and marked as done. A name
that is done is passed over. Meeting a name in progress closes a cycle, which is the error.

The walk ends because every step down marks a further name, and a name without a rule has no
references. So `visit` is a walk of limited depth, with one more than the number of rules as the
limit. `Rules.Visits` says what walks do without any limit, and `visits_iff` that every walk ends,
and that `visit` is what it comes to.

The main property is `acc_of_visits`: a name is done only when all its references are, so no
infinite chain of references starts at a done name. Rules whose walk from all names succeeds
have a well-founded reference relation, which is `wellFounded_of_cycle?_eq_none`.
-/

namespace RandomSentences

/-- What a walk knows of a name that it has come to. -/
inductive Mark where
  /-- The references of the name are being followed. -/
  | inProgress
  /-- All references of the name have been followed. -/
  | done
  deriving DecidableEq, Repr

/-- A walk under way. -/
structure Walk where
  /-- The marks of the names that it has come to. -/
  marks : Std.ExtTreeMap String Mark
  /-- The names whose references are being followed, the newest first. -/
  path : List String
  deriving DecidableEq, Repr

namespace Walk

/-- A walk that has come to no name. -/
def start : Walk :=
  ⟨∅, []⟩

/-- The mark of a name, if the walk has come to it. -/
def mark? (walk : Walk) (name : String) : Option Mark :=
  walk.marks[name]?

/-- From now on the references of a name are being followed. -/
def enter (walk : Walk) (name : String) : Walk :=
  ⟨walk.marks.insert name .inProgress, name :: walk.path⟩

/-- All references of a name, the newest of the path, have been followed. -/
def leave (walk : Walk) (name : String) : Walk :=
  ⟨walk.marks.insert name .done, walk.path.tail⟩

/-- The part of the path from a name on, oldest first, closed by the name. It is the whole path if
the name is not on it. -/
def closeCycle (walk : Walk) (name : String) : List String :=
  let path := walk.path.reverse
  path.drop ((path.idxOf? name).getD 0) ++ [name]

@[simp]
theorem mark?_start (name : String) : start.mark? name = none := by
  simp [mark?, start]

@[simp]
theorem mark?_enter (walk : Walk) (name other : String) :
    (walk.enter name).mark? other =
      if name = other then some .inProgress else walk.mark? other := by
  simp [mark?, enter, Std.ExtTreeMap.getElem?_insert]

@[simp]
theorem mark?_leave (walk : Walk) (name other : String) :
    (walk.leave name).mark? other = if name = other then some .done else walk.mark? other := by
  simp [mark?, leave, Std.ExtTreeMap.getElem?_insert]

@[simp]
theorem path_enter (walk : Walk) (name : String) : (walk.enter name).path = name :: walk.path :=
  rfl

@[simp]
theorem path_leave (walk : Walk) (name : String) : (walk.leave name).path = walk.path.tail :=
  rfl

theorem mem_keys_marks_iff {walk : Walk} {name : String} :
    name ∈ walk.marks.keys ↔ (walk.mark? name).isSome := by
  rw [Std.ExtTreeMap.mem_keys, Std.ExtTreeMap.mem_iff_isSome_getElem?, mark?]

end Walk

namespace Rules

/-- `rules.IsReferencedBy a b`: the rule `b` refers to the name `a`. -/
def IsReferencedBy (rules : Rules) (a b : String) : Prop :=
  a ∈ rules.references b

/-- How many rule names are not among some names. -/
def unmarked (rules : Rules) (names : List String) : Nat :=
  (rules.keys.filter fun name => !names.contains name).length

theorem unmarked_cons_lt {rules : Rules} {name : String} {names : List String}
    (hrule : name ∈ rules) (hname : names.contains name = false) :
    rules.unmarked (name :: names) < rules.unmarked names := by
  unfold unmarked
  have hsub : rules.keys.filter (fun other => !(name :: names).contains other) =
      (rules.keys.filter fun other => !names.contains other).filter (· != name) := by
    rw [List.filter_filter]
    apply List.filter_congr
    intro other _
    by_cases h : other = name <;> simp [h]
  rw [hsub]
  apply List.length_filter_lt_length_iff_exists.2
  exact ⟨name, by simpa [hrule] using hname, by simp⟩

/-- Of more names no more rule names are left. -/
theorem unmarked_le_of_subset {rules : Rules} {names others : List String} (h : names ⊆ others) :
    rules.unmarked others ≤ rules.unmarked names := by
  simp only [unmarked, ← List.countP_eq_length_filter]
  refine List.countP_mono_left fun name _ hname => ?_
  have hnot : name ∉ others := by simpa using hname
  simpa using fun hmem => hnot (h hmem)

theorem unmarked_le_size (rules : Rules) (names : List String) :
    rules.unmarked names ≤ rules.size := by
  rw [← Std.ExtTreeMap.length_keys]
  exact List.length_filter_le _ _

/-- Coming to a rule that has no mark leaves fewer rules without one. -/
theorem unmarked_enter_lt {rules : Rules} {walk : Walk} {name : String} (hrule : name ∈ rules)
    (hmark : walk.mark? name = none) :
    rules.unmarked (walk.enter name).marks.keys < rules.unmarked walk.marks.keys := by
  have hname : name ∉ walk.marks.keys := by
    rw [Walk.mem_keys_marks_iff, hmark]
    simp
  have hsub : name :: walk.marks.keys ⊆ (walk.enter name).marks.keys := by
    intro other hother
    rw [Walk.mem_keys_marks_iff, Walk.mark?_enter]
    rcases List.mem_cons.1 hother with rfl | hother
    · simp
    · split
      · rfl
      · exact Walk.mem_keys_marks_iff.1 hother
  exact Nat.lt_of_le_of_lt (unmarked_le_of_subset hsub)
    (unmarked_cons_lt hrule (by simpa using hname))

/-- Walks along the references from a name, at most `fuel` names deep. The result is the walk after
that, or the cycle that was met. -/
def visitWithin (rules : Rules) :
    (fuel : Nat) → Walk → (name : String) → Except (List String) Walk
  | 0, walk, _ => .ok walk
  | fuel + 1, walk, name =>
    match walk.mark? name with
    | some .done => .ok walk
    | some .inProgress => .error (walk.closeCycle name)
    | none =>
      match (rules.references name).foldlM (visitWithin rules fuel) (walk.enter name) with
      | .error cycle => .error cycle
      | .ok walk => .ok (walk.leave name)

/-- Walks along the references from a name. -/
def visit (rules : Rules) (walk : Walk) (name : String) : Except (List String) Walk :=
  visitWithin rules (rules.size + 1) walk name

/-- The first cycle that the walks from all rule names, in their order, meet. -/
def cycle? (rules : Rules) : Option (List String) :=
  match rules.keys.foldlM rules.visit .start with
  | .error cycle => some cycle
  | .ok _ => none

/-! ### Walks without a limit -/

/-- `rules.Visits walk names result`: a walk that goes on to some names, one after the other, ends
with this result. -/
inductive Visits (rules : Rules) : Walk → List String → Except (List String) Walk → Prop
  /-- There is no name to go to. -/
  | nil (walk : Walk) : Visits rules walk [] (.ok walk)
  /-- A name that is done is passed over. -/
  | passed {walk : Walk} {name : String} {names : List String} {result : Except (List String) Walk}
      (hmark : walk.mark? name = some .done) (hrest : Visits rules walk names result) :
      Visits rules walk (name :: names) result
  /-- A name in progress closes a cycle. -/
  | closed {walk : Walk} {name : String} {names : List String}
      (hmark : walk.mark? name = some .inProgress) :
      Visits rules walk (name :: names) (.error (walk.closeCycle name))
  /-- A cycle is met among the references of a name. -/
  | broken {walk : Walk} {name : String} {names cycle : List String}
      (hmark : walk.mark? name = none)
      (hrefs : Visits rules (walk.enter name) (rules.references name) (.error cycle)) :
      Visits rules walk (name :: names) (.error cycle)
  /-- The references of a name are followed, and the walk goes on. -/
  | followed {walk inner : Walk} {name : String} {names : List String}
      {result : Except (List String) Walk} (hmark : walk.mark? name = none)
      (hrefs : Visits rules (walk.enter name) (rules.references name) (.ok inner))
      (hrest : Visits rules (inner.leave name) names result) :
      Visits rules walk (name :: names) result

variable {rules : Rules} {walk next after : Walk} {name : String} {names : List String}
  {result : Except (List String) Walk}

/-- What the mark of the next name says on how a walk goes on. -/
theorem visits_cons_iff :
    rules.Visits walk (name :: names) result ↔
      match walk.mark? name with
      | some .done => rules.Visits walk names result
      | some .inProgress => result = .error (walk.closeCycle name)
      | none => ∃ followed, rules.Visits (walk.enter name) (rules.references name) followed ∧
          match followed with
          | .error cycle => result = .error cycle
          | .ok inner => rules.Visits (inner.leave name) names result := by
  constructor
  · intro h
    cases h with
    | passed hmark hrest => rwa [hmark]
    | closed hmark => rw [hmark]
    | broken hmark hrefs =>
      rw [hmark]
      exact ⟨_, hrefs, rfl⟩
    | followed hmark hrefs hrest =>
      rw [hmark]
      exact ⟨_, hrefs, hrest⟩
  · intro h
    split at h
    · rename_i hmark
      exact .passed hmark h
    · rename_i hmark
      exact h ▸ .closed hmark
    · rename_i hmark
      obtain ⟨followed, hrefs, hrest⟩ := h
      cases followed with
      | error cycle => exact hrest ▸ .broken hmark hrefs
      | ok inner => exact .followed hmark hrefs hrest

/-- A walk has one result only. -/
theorem Visits.unique {other : Except (List String) Walk} (h : rules.Visits walk names result)
    (h' : rules.Visits walk names other) : result = other := by
  induction h generalizing other with
  | nil walk =>
    cases h'
    rfl
  | passed hmark _ ih =>
    rw [visits_cons_iff, hmark] at h'
    exact ih h'
  | closed hmark =>
    rw [visits_cons_iff, hmark] at h'
    exact h'.symm
  | broken hmark _ ih =>
    rw [visits_cons_iff, hmark] at h'
    obtain ⟨followed, hrefs, hrest⟩ := h'
    obtain rfl := ih hrefs
    exact hrest.symm
  | followed hmark _ _ ihrefs ihrest =>
    rw [visits_cons_iff, hmark] at h'
    obtain ⟨followed, hrefs, hrest⟩ := h'
    obtain rfl := ihrefs hrefs
    exact ihrest hrest

/-- A cycle that is met from a name is met whatever names come after it. -/
theorem Visits.cons_error {cycle : List String} (h : rules.Visits walk [name] (.error cycle))
    (names : List String) :
    rules.Visits walk (name :: names) (.error cycle) := by
  cases h with
  | passed _ hrest => cases hrest
  | closed hmark => exact .closed hmark
  | broken hmark hrefs => exact .broken hmark hrefs
  | followed _ _ hrest => cases hrest

/-- After a name the walk goes on to the names that come after it. -/
theorem Visits.cons_ok (h : rules.Visits walk [name] (.ok next))
    (hrest : rules.Visits next names result) : rules.Visits walk (name :: names) result := by
  cases h with
  | passed hmark hnil =>
    cases hnil
    exact .passed hmark hrest
  | followed hmark hrefs hnil =>
    cases hnil
    exact .followed hmark hrefs hrest

/-- A walk that succeeds ends with the path that it had, and no mark has changed. -/
theorem Visits.keeps (h : rules.Visits walk names result) (hok : result = .ok after) :
    after.path = walk.path ∧
      ∀ name mark, walk.mark? name = some mark → after.mark? name = some mark := by
  induction h generalizing after with
  | nil walk =>
    obtain rfl := Except.ok.inj hok
    exact ⟨rfl, fun _ _ h => h⟩
  | passed _ _ ih => exact ih hok
  | closed => simp at hok
  | broken => simp at hok
  | @followed walk inner name names result hmark _ _ ihrefs ihrest =>
    obtain ⟨hpath, hmarks⟩ := ihrefs rfl
    obtain ⟨hpath', hmarks'⟩ := ihrest hok
    refine ⟨?_, fun other mark hother => hmarks' other mark ?_⟩
    · rw [hpath', Walk.path_leave, hpath, Walk.path_enter, List.tail_cons]
    -- a name with a mark is not the one that the walk has come to just now
    · have hne : name ≠ other := by
        rintro rfl
        simp [hmark] at hother
      rw [Walk.mark?_leave, if_neg hne]
      exact hmarks other mark (by rw [Walk.mark?_enter, if_neg hne, hother])

/-- A walk that succeeds has made the names done that it went to. -/
theorem Visits.mark?_eq_done (h : rules.Visits walk names result) (hok : result = .ok after) :
    ∀ name ∈ names, after.mark? name = some .done := by
  induction h generalizing after with
  | nil => simp
  | passed hmark hrest ih =>
    exact List.forall_mem_cons.2 ⟨(hrest.keeps hok).2 _ _ hmark, ih hok⟩
  | closed => simp at hok
  | broken => simp at hok
  | followed _ _ hrest _ ihrest =>
    exact List.forall_mem_cons.2 ⟨(hrest.keeps hok).2 _ _ (by simp), ihrest hok⟩

/-- If the single steps follow the walk, then so do many of them. -/
theorem visits_foldlM {limit : Nat} {step : Walk → String → Except (List String) Walk}
    (hstep : ∀ walk name, rules.unmarked walk.marks.keys < limit →
      rules.Visits walk [name] (step walk name))
    (h : rules.unmarked walk.marks.keys < limit) (names : List String) :
    rules.Visits walk names (names.foldlM step walk) := by
  induction names generalizing walk with
  | nil => exact .nil walk
  | cons name names ih =>
    rw [List.foldlM_cons]
    have hname := hstep walk name h
    cases hresult : step walk name with
    | error cycle => exact (hresult ▸ hname).cons_error names
    | ok next =>
      rw [hresult] at hname
      have hsub : walk.marks.keys ⊆ next.marks.keys := by
        intro other hother
        obtain ⟨mark, hmark⟩ := Option.isSome_iff_exists.1 (Walk.mem_keys_marks_iff.1 hother)
        exact Walk.mem_keys_marks_iff.2 (by rw [(hname.keeps rfl).2 other mark hmark]; rfl)
      exact hname.cons_ok (ih (Nat.lt_of_le_of_lt (unmarked_le_of_subset hsub) h))

/-- A limit that is greater than the number of rules without a mark is never reached. -/
theorem visits_visitWithin {fuel : Nat} (h : rules.unmarked walk.marks.keys < fuel)
    (name : String) : rules.Visits walk [name] (rules.visitWithin fuel walk name) := by
  induction fuel generalizing walk name with
  | zero => exact absurd h (Nat.not_lt_zero _)
  | succ fuel ih =>
    rw [visits_cons_iff, visitWithin]
    split
    · exact .nil walk
    · rfl
    · rename_i hmark
      have hrefs : rules.Visits (walk.enter name) (rules.references name)
          ((rules.references name).foldlM (rules.visitWithin fuel) (walk.enter name)) := by
        by_cases hrule : name ∈ rules
        · have hlt := unmarked_enter_lt hrule hmark
          exact visits_foldlM (fun _ name h => ih h name) (by omega) _
        -- a name without a rule has no references to follow
        · rw [references_eq_nil_of_not_mem hrule]
          exact .nil _
      refine ⟨_, hrefs, ?_⟩
      split
      · rfl
      · exact .nil _

/-- Every walk ends, and `visit` is what it comes to. -/
theorem visits_iff : rules.Visits walk [name] result ↔ result = rules.visit walk name := by
  have hvisit : rules.Visits walk [name] (rules.visit walk name) :=
    visits_visitWithin (Nat.lt_succ_of_le (rules.unmarked_le_size _)) name
  exact ⟨fun h => h.unique hvisit, fun h => h ▸ hvisit⟩

theorem visits_foldlM_visit (rules : Rules) (walk : Walk) (names : List String) :
    rules.Visits walk names (names.foldlM rules.visit walk) :=
  visits_foldlM (fun _ _ _ => visits_iff.2 rfl)
    (Nat.lt_succ_of_le (rules.unmarked_le_size _)) names

/-! ### Done names are accessible -/

/-- A walk that succeeds has only done names at which no infinite chain of references starts, if it
had no others before. -/
theorem acc_of_visits (h : rules.Visits walk names result) (hok : result = .ok after)
    (hdone : ∀ name, walk.mark? name = some .done → Acc rules.IsReferencedBy name) :
    ∀ name, after.mark? name = some .done → Acc rules.IsReferencedBy name := by
  induction h generalizing after with
  | nil walk =>
    obtain rfl := Except.ok.inj hok
    exact hdone
  | passed _ _ ih => exact ih hok hdone
  | closed => simp at hok
  | broken => simp at hok
  | @followed walk inner name names result _ hrefs _ ihrefs ihrest =>
    have hinner := ihrefs rfl fun other hother => by
      rw [Walk.mark?_enter] at hother
      split at hother
      · simp at hother
      · exact hdone other hother
    refine ihrest hok fun other hother => ?_
    rw [Walk.mark?_leave] at hother
    split at hother
    · rename_i heq
      exact heq ▸ Acc.intro _ fun next hnext => hinner next (hrefs.mark?_eq_done rfl next hnext)
    · exact hinner other hother

/-- If no walk meets a cycle, then no infinite chain of references starts anywhere. -/
theorem wellFounded_of_cycle?_eq_none (h : rules.cycle? = none) :
    WellFounded rules.IsReferencedBy := by
  unfold cycle? at h
  split at h
  · simp at h
  · rename_i after hok
    have hwalk := rules.visits_foldlM_visit .start rules.keys
    refine ⟨fun name => ?_⟩
    by_cases hrule : name ∈ rules
    · have hdone := hwalk.mark?_eq_done hok name (by simpa using hrule)
      exact acc_of_visits hwalk hok (by simp) name hdone
    · refine Acc.intro name fun other hother => ?_
      simp [IsReferencedBy, references_eq_nil_of_not_mem hrule] at hother

end Rules

end RandomSentences
