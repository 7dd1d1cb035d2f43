import RandomSentences.Proofs.Cycle
import RandomSentences.Grammar.Reach

/-!
# What the search from the start symbol finds

A search may be stopped after any number of rounds. What is true of it then is `Search.Valid`, in
two halves: references lead from the start to every name that was met so far, and the start as well
as every name that a marked rule refers to has been met. A round takes a name from those that are
pending, so it keeps both (`Valid.of_step?`), and by induction on the rounds so does the whole loop.

When nothing is pending any more, the marked names hold the start and are closed under references.
So they are exactly the names that references lead to, in any number of steps (`mem_reach_iff`), and
`Grammar.mem_unreachable_iff` says this of the rules that a grammar lists as unreachable.
-/

namespace RandomSentences

namespace Search

variable {rules : Rules} {start : String} {search next last : Search}

/-- `search.Valid rules start`: what holds between the rounds of a search from a start. -/
structure Valid (rules : Rules) (start : String) (search : Search) : Prop where
  /-- References lead to every marked name. -/
  led_of_mem_seen : ∀ name ∈ search.seen, Relation.ReflTransGen rules.RefersTo start name
  /-- References lead to every pending name. -/
  led_of_mem_pending : ∀ name ∈ search.pending, Relation.ReflTransGen rules.RefersTo start name
  /-- The start is marked or pending. -/
  start_met : start ∈ search.seen ∨ start ∈ search.pending
  /-- What a marked rule refers to is marked or pending. -/
  references_met : ∀ name ∈ search.seen, ∀ other ∈ rules.references name,
    other ∈ search.seen ∨ other ∈ search.pending

theorem valid_start (rules : Rules) (start : String) : Valid rules start ⟨[], [start]⟩ where
  led_of_mem_seen := by simp
  led_of_mem_pending := by
    intro name hname
    obtain rfl : name = start := by simpa using hname
    exact .refl
  start_met := .inr (List.mem_cons_self ..)
  references_met := by simp

/-- A name that was met is met also if a marked name is not pending any more. -/
theorem met_of_seen {seen pending : List String} {name other : String} (hseen : name ∈ seen)
    (h : other ∈ seen ∨ other ∈ name :: pending) : other ∈ seen ∨ other ∈ pending := by
  rcases h with h | h
  · exact .inl h
  · rcases List.mem_cons.mp h with rfl | h
    · exact .inl hseen
    · exact .inr h

/-- A name that was met is met also if a pending name is marked, whatever is looked at next. -/
theorem met_of_marked {seen pending added : List String} {name other : String}
    (h : other ∈ seen ∨ other ∈ name :: pending) :
    other ∈ name :: seen ∨ other ∈ added ++ pending := by
  rcases h with h | h
  · exact .inl (List.mem_cons_of_mem _ h)
  · rcases List.mem_cons.mp h with rfl | h
    · exact .inl (List.mem_cons_self ..)
    · exact .inr (List.mem_append_right _ h)

/-- A round keeps what holds between rounds. -/
theorem Valid.of_step? (h : search.Valid rules start) (hstep : search.step? rules = some next) :
    next.Valid rules start := by
  obtain ⟨seen, pending⟩ := search
  cases pending with
  | nil => simp [step?] at hstep
  | cons name pending =>
    have hname := h.led_of_mem_pending name (List.mem_cons_self ..)
    have hpending : ∀ other ∈ pending, Relation.ReflTransGen rules.RefersTo start other :=
      fun other hother => h.led_of_mem_pending other (List.mem_cons_of_mem _ hother)
    rw [step?] at hstep
    split at hstep
    · rename_i hseen
      have hseen : name ∈ seen := by simpa using hseen
      obtain rfl : ⟨seen, pending⟩ = next := by simpa using hstep
      exact
        { led_of_mem_seen := h.led_of_mem_seen
          led_of_mem_pending := hpending
          start_met := met_of_seen hseen h.start_met
          references_met := fun other hother third hthird =>
            met_of_seen hseen (h.references_met other hother third hthird) }
    · obtain rfl : ⟨name :: seen, (rules.references name).reverse ++ pending⟩ = next := by
        simpa using hstep
      refine ⟨fun other hother => ?_, fun other hother => ?_, met_of_marked h.start_met,
        fun other hother third hthird => ?_⟩
      · rcases List.mem_cons.mp hother with rfl | hother
        · exact hname
        · exact h.led_of_mem_seen other hother
      · rcases List.mem_append.mp hother with hother | hother
        · exact hname.tail (List.mem_reverse.mp hother)
        · exact hpending other hother
      · rcases List.mem_cons.mp hother with rfl | hother
        · exact .inr (List.mem_append_left _ (List.mem_reverse.mpr hthird))
        · exact met_of_marked (h.references_met other hother third hthird)

/-- If nothing is pending, exactly the names that references lead to are marked. -/
theorem Valid.mem_seen_iff (h : search.Valid rules start) (hpending : search.pending = [])
    {name : String} :
    name ∈ search.seen ↔ Relation.ReflTransGen rules.RefersTo start name := by
  constructor
  · exact h.led_of_mem_seen name
  · intro hled
    induction hled with
    | refl => simpa [hpending] using h.start_met
    | tail _ hrefers ih => simpa [hpending] using h.references_met _ ih _ hrefers

/-! ### Whole runs -/

/-- `Rounds rules rounds search last`: so many rounds lead from one search to another. -/
inductive Rounds (rules : Rules) : Nat → Search → Search → Prop
  | refl (search : Search) : Rounds rules 0 search search
  | step {rounds : Nat} {search next last : Search} (hstep : search.step? rules = some next)
      (hrest : Rounds rules rounds next last) : Rounds rules (rounds + 1) search last

/-- Rounds keep what holds between rounds. -/
theorem Valid.of_rounds {rounds : Nat} (h : search.Valid rules start)
    (hrounds : Rounds rules rounds search last) : last.Valid rules start := by
  induction hrounds with
  | refl => exact h
  | step hstep _ ih => exact ih (h.of_step? hstep)

/-- The rounds that were made and those that are left at most are always as many. -/
theorem Rounds.work_eq {rounds : Nat} (h : Rounds rules rounds search last) :
    search.work rules = last.work rules + rounds := by
  induction h with
  | refl => rfl
  | step hstep _ ih =>
    have hless := work_of_step? hstep
    omega

theorem pending_eq_nil_iff : search.step? rules = none ↔ search.pending = [] := by
  obtain ⟨seen, pending⟩ := search
  cases pending with
  | nil => simp [step?]
  | cons name pending =>
    rw [step?]
    split <;> simp

/-- The loop makes rounds until nothing is pending. -/
theorem rounds_run (rules : Rules) (search : Search) :
    (search.run rules).pending = [] ∧ ∃ rounds, Rounds rules rounds search (search.run rules) := by
  induction hwork : search.work rules generalizing search with
  | zero =>
    have hnone : search.step? rules = none := by
      rw [Option.eq_none_iff_forall_not_mem]
      intro next hnext
      have hless := work_of_step? hnext
      omega
    rw [run_eq, hnone]
    exact ⟨pending_eq_nil_iff.mp hnone, 0, .refl search⟩
  | succ rounds ih =>
    rw [run_eq]
    cases hstep : search.step? rules with
    | none => exact ⟨pending_eq_nil_iff.mp hstep, 0, .refl search⟩
    | some next =>
      have hless := work_of_step? hstep
      obtain ⟨hpending, rounds, hrounds⟩ := ih next (by omega)
      exact ⟨hpending, rounds + 1, .step hstep hrounds⟩

end Search

/-- A search from nothing finds exactly the names that references lead to. -/
theorem Rules.mem_reach_iff {rules : Rules} {start name : String} :
    name ∈ rules.reach [] start ↔ Relation.ReflTransGen rules.RefersTo start name := by
  obtain ⟨hpending, rounds, hrounds⟩ := Search.rounds_run rules ⟨[], [start]⟩
  exact ((Search.valid_start rules start).of_rounds hrounds).mem_seen_iff hpending

/-- A rule is unreachable exactly if no references lead to it from the start symbol. -/
theorem Grammar.mem_unreachable_iff {g : Grammar} {name : String} :
    name ∈ g.unreachable ↔
      name ∈ g.rules ∧ ¬ Relation.ReflTransGen g.rules.RefersTo g.start name := by
  rw [unreachable, List.mem_filter, ruleNames, Std.ExtTreeMap.mem_keys, ← Rules.mem_reach_iff]
  simp

end RandomSentences
