import RandomSentences.Grammar.Basic

/-!
# Rules that the start symbol reaches

References are followed by a *search* with a stack of names to look at. In each round the name on
top is taken off. If it was seen before, that is all; otherwise it is marked as seen, and the names
that its rule refers to are put on top, each as often as it is referred to.

A name may be put on the stack many times, and references may lead in circles. But the references
of a rule are put there only once, when its name is marked. So the names on the stack, together with
the references of the rules that are not marked, are as many as the rounds that are left at most:
`Search.work_of_step?` says that every round takes one away. `Search.run` is the loop for this many
rounds, and `Search.run_eq` the loop without a limit.

`Grammar.unreachable` lists the rules of a grammar that its start symbol does not reach.
-/

namespace RandomSentences

/-- A search under way. -/
structure Search where
  /-- The names that are marked, the newest first. -/
  seen : List String
  /-- The names still to look at, the next one first. -/
  pending : List String
  deriving DecidableEq, Repr

/-- How many references the rules have whose names are not marked. -/
def Rules.unfollowed (rules : Rules) (seen : List String) : Nat :=
  ((rules.keys.filter fun name => !seen.contains name).flatMap rules.references).length

namespace Search

/-- The search after one more round, if a name is pending. Of the names that a rule refers to, the
last one is looked at first. -/
def step? (rules : Rules) : Search → Option Search
  | ⟨_, []⟩ => none
  | ⟨seen, name :: pending⟩ =>
    if seen.contains name then
      some ⟨seen, pending⟩
    else
      some ⟨name :: seen, (rules.references name).reverse ++ pending⟩

/-- The greatest number of rounds that may be left. -/
def work (rules : Rules) (search : Search) : Nat :=
  search.pending.length + rules.unfollowed search.seen

/-- The search after so many rounds, or fewer if nothing is pending any more. -/
def runFor (rules : Rules) : (rounds : Nat) → Search → Search
  | 0, search => search
  | rounds + 1, search =>
    match search.step? rules with
    | none => search
    | some next => runFor rules rounds next

/-- The search when nothing is pending any more. -/
def run (rules : Rules) (search : Search) : Search :=
  runFor rules (search.work rules) search

end Search

namespace Rules

/-- The names seen, with all names added that references lead to from a name. -/
def reach (rules : Rules) (seen : List String) (name : String) : List String :=
  (Search.run rules ⟨seen, [name]⟩).seen

/-- Marking a name leaves fewer references to follow, namely without its own. -/
theorem unfollowed_cons {rules : Rules} {seen : List String} {name : String}
    (h : seen.contains name = false) :
    rules.unfollowed seen = (rules.references name).length + rules.unfollowed (name :: seen) := by
  have hfilter : rules.keys.filter (fun other => !(name :: seen).contains other) =
      (rules.keys.filter fun other => !seen.contains other).filter (· != name) := by
    rw [List.filter_filter]
    refine List.filter_congr fun other _ => ?_
    by_cases hother : other = name <;> simp [hother]
  by_cases hrule : name ∈ rules
  · have hmem : name ∈ rules.keys.filter fun other => !seen.contains other := by
      simpa [hrule] using h
    have hnodup : (rules.keys.filter fun other => !seen.contains other).Nodup :=
      Std.ExtTreeMap.nodup_keys.filter _
    have hperm := (List.perm_cons_erase hmem).flatMap_right rules.references
    rw [unfollowed, hperm.length_eq, List.flatMap_cons, List.length_append, unfollowed, hfilter,
      hnodup.erase_eq_filter]
  -- a name without a rule has no references, and is none of the rule names
  · have hnot : ∀ other ∈ rules.keys.filter (fun other => !seen.contains other),
        (other != name) = true := by
      intro other hother
      have hkey : other ∈ rules := Std.ExtTreeMap.mem_keys.1 (List.mem_filter.1 hother).1
      simpa using fun heq : other = name => hrule (heq ▸ hkey)
    rw [references_eq_nil_of_not_mem hrule, List.length_nil, Nat.zero_add, unfollowed, unfollowed,
      hfilter, List.filter_eq_self.2 hnot]

end Rules

namespace Search

/-! ### The limit does not matter -/

/-- Every round leaves one round less. -/
theorem work_of_step? {rules : Rules} {search next : Search} (h : search.step? rules = some next) :
    search.work rules = next.work rules + 1 := by
  obtain ⟨seen, pending⟩ := search
  cases pending with
  | nil => simp [step?] at h
  | cons name pending =>
    rw [step?] at h
    split at h
    · obtain rfl : ⟨seen, pending⟩ = next := by simpa using h
      simp only [work, List.length_cons]
      omega
    · rename_i hseen
      obtain rfl : ⟨name :: seen, (rules.references name).reverse ++ pending⟩ = next := by
        simpa using h
      have hless : rules.unfollowed seen =
          (rules.references name).length + rules.unfollowed (name :: seen) :=
        Rules.unfollowed_cons (by simpa using hseen)
      simp only [work, List.length_cons, List.length_append, List.length_reverse]
      omega

/-- The loop: rounds are made as long as a name is pending. -/
theorem run_eq (rules : Rules) (search : Search) :
    search.run rules = match search.step? rules with
      | none => search
      | some next => next.run rules := by
  cases hstep : search.step? rules with
  | none =>
    rw [run]
    cases search.work rules with
    | zero => rfl
    | succ rounds => rw [runFor, hstep]
  | some next =>
    rw [run, work_of_step? hstep, runFor, hstep]
    rfl

end Search

/-- The rules that no references lead to from the start symbol, in increasing order. -/
def Grammar.unreachable (g : Grammar) : List String :=
  g.ruleNames.filter fun name => !(g.rules.reach [] g.start).contains name

end RandomSentences
