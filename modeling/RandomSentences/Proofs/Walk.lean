import Mathlib.Data.List.Chain
import Mathlib.Data.List.Nodup
import Mathlib.Logic.Relation
import RandomSentences.Grammar.Cycle

/-!
# What a walk keeps

The search for cycles passes over a name that is done, and takes a name in progress for the end of a
cycle. Both are right because of what holds of a walk at every moment, which is `Walk.IsSound`. The
names in progress are those of the path, each of which was referred to by the one before it. The
names that are done are closed under references, and none of them leads back to itself.

* **Steps.** A sound walk stays sound when it comes to a name that the newest name of the path
  refers to (`Walk.IsSound.enter`), and when it takes a name off the path whose references are all
  done (`Walk.IsSound.leave`). In between, some references of a name in progress are done and others
  are not, which is why only names that are done have to be closed.
* **Runs.** By induction on the steps, a walk that succeeds is sound if it was so before
  (`Rules.Visits.isSound`).
-/

namespace RandomSentences

namespace Rules

variable {rules : Rules}

/-- `rules.RefersTo name next`: the rule `name` refers to the name `next`. -/
def RefersTo (rules : Rules) (name next : String) : Prop :=
  next ∈ rules.references name

/-- Only a name with a rule refers to names. -/
theorem mem_of_isReferencedBy {name next : String} (h : rules.IsReferencedBy next name) :
    name ∈ rules := by
  by_contra hrule
  rw [IsReferencedBy, references_eq_nil_of_not_mem hrule] at h
  exact List.not_mem_nil h

end Rules

namespace Walk

variable {rules : Rules} {walk : Walk} {name : String}

/-- What holds of a walk at every moment. -/
structure IsSound (rules : Rules) (walk : Walk) : Prop where
  /-- The names in progress are those of the path. -/
  inProgress_iff : ∀ name, walk.mark? name = some .inProgress ↔ name ∈ walk.path
  /-- No name is on the path twice. -/
  nodup_path : walk.path.Nodup
  /-- Every name of the path is referred to by the one before it. -/
  isChain_path : walk.path.IsChain rules.IsReferencedBy
  /-- No name that is done leads to one in progress. -/
  not_leads : ∀ name other, walk.mark? name = some .done → walk.mark? other = some .inProgress →
    ¬ Relation.ReflTransGen rules.RefersTo name other
  /-- No name that is done leads back to itself. -/
  not_cyclic : ∀ name, walk.mark? name = some .done → ¬ Relation.TransGen rules.RefersTo name name
  /-- Every name that a done name refers to is done. -/
  done_of_refersTo : ∀ name next, walk.mark? name = some .done → rules.RefersTo name next →
    walk.mark? next = some .done

/-- `walk.LeadsTo rules name`: the path is empty, or its newest name refers to `name`. -/
def LeadsTo (rules : Rules) (walk : Walk) (name : String) : Prop :=
  ∀ newest ∈ walk.path.head?, rules.RefersTo newest name

theorem leadsTo_start (rules : Rules) (name : String) : start.LeadsTo rules name := by
  simp [LeadsTo, start]

theorem leadsTo_enter {next : String} (h : rules.RefersTo name next) :
    (walk.enter name).LeadsTo rules next := by
  simpa [LeadsTo] using h

/-- Where a walk leads to depends on its path only. -/
theorem LeadsTo.of_path_eq {other : Walk} (h : walk.LeadsTo rules name)
    (hpath : other.path = walk.path) : other.LeadsTo rules name := by
  rwa [LeadsTo, hpath]

/-- If done names only refer to done names, then they only lead to done names. -/
theorem done_of_reflTransGen {other : String}
    (hclosed : ∀ name next, walk.mark? name = some .done → rules.RefersTo name next →
      walk.mark? next = some .done)
    (hname : walk.mark? name = some .done)
    (hleads : Relation.ReflTransGen rules.RefersTo name other) :
    walk.mark? other = some .done := by
  induction hleads with
  | refl => exact hname
  | tail _ hstep ih => exact hclosed _ _ ih hstep

namespace IsSound

/-- That no done name leads to one in progress follows from the rest. -/
theorem of_closed (hpath : ∀ name, walk.mark? name = some .inProgress ↔ name ∈ walk.path)
    (hnodup : walk.path.Nodup) (hchain : walk.path.IsChain rules.IsReferencedBy)
    (hcyclic : ∀ name, walk.mark? name = some .done →
      ¬ Relation.TransGen rules.RefersTo name name)
    (hclosed : ∀ name next, walk.mark? name = some .done → rules.RefersTo name next →
      walk.mark? next = some .done) : walk.IsSound rules := by
  refine ⟨hpath, hnodup, hchain, fun name other hname hother hleads => ?_, hcyclic, hclosed⟩
  have hdone := done_of_reflTransGen hclosed hname hleads
  simp [hother] at hdone

theorem start (rules : Rules) : Walk.start.IsSound rules :=
  .of_closed (by simp [Walk.start, mark?]) List.nodup_nil List.IsChain.nil (by simp) (by simp)

/-- Coming to a name without a mark, to which the newest name of the path refers. -/
theorem enter (h : walk.IsSound rules) (hmark : walk.mark? name = none)
    (hname : walk.LeadsTo rules name) : (walk.enter name).IsSound rules := by
  have hnot : name ∉ walk.path := fun hmem => by
    simp [(h.inProgress_iff name).mpr hmem] at hmark
  -- the names that are done are the same as before
  have hdone : ∀ other, (walk.enter name).mark? other = some .done →
      walk.mark? other = some .done := by
    intro other hother
    rw [mark?_enter] at hother
    split at hother
    · simp at hother
    · exact hother
  refine .of_closed (fun other => ?_) (List.nodup_cons.mpr ⟨hnot, h.nodup_path⟩)
    (List.isChain_cons.mpr ⟨hname, h.isChain_path⟩)
    (fun other hother => h.not_cyclic other (hdone other hother))
    (fun other next hother hnext => ?_)
  · by_cases heq : name = other
    · simp [heq]
    · simp [heq, Ne.symm heq, h.inProgress_iff]
  · have hnext := h.done_of_refersTo other next (hdone other hother) hnext
    have hne : name ≠ next := by
      rintro rfl
      simp [hmark] at hnext
    rw [mark?_enter, if_neg hne, hnext]

/-- Taking the newest name off the path, when all its references are done. -/
theorem leave {path : List String} (h : walk.IsSound rules) (hpath : walk.path = name :: path)
    (hrefs : ∀ next ∈ rules.references name, walk.mark? next = some .done) :
    (walk.leave name).IsSound rules := by
  have hname : walk.mark? name = some .inProgress :=
    (h.inProgress_iff name).mpr (by simp [hpath])
  have hnodup : (name :: path).Nodup := hpath ▸ h.nodup_path
  have hchain : (name :: path).IsChain rules.IsReferencedBy := hpath ▸ h.isChain_path
  refine .of_closed (fun other => ?_) ?_ ?_ (fun other hother hcycle => ?_)
    (fun other next hother hnext => ?_)
  · by_cases heq : name = other
    · simpa [← heq, hpath] using (List.nodup_cons.mp hnodup).1
    · simp [heq, Ne.symm heq, h.inProgress_iff, hpath]
  · simpa [hpath] using (List.nodup_cons.mp hnodup).2
  · simpa [hpath] using hchain.tail
  · rw [mark?_leave] at hother
    split at hother
    -- a cycle through the name would lead from a reference, which is done, to the name
    · rename_i heq
      subst heq
      obtain ⟨next, hstep, hback⟩ := Relation.TransGen.head'_iff.mp hcycle
      exact h.not_leads next name (hrefs next hstep) hname hback
    · exact h.not_cyclic other hother hcycle
  · have hnext : walk.mark? next = some .done := by
      rw [mark?_leave] at hother
      split at hother
      · rename_i heq
        exact hrefs next (heq ▸ hnext)
      · exact h.done_of_refersTo other next hother hnext
    rw [mark?_leave, hnext, ite_self]

/-- Taking a name off the path after the walk through its references. -/
theorem leave_of_visits {inner : Walk} (h : inner.IsSound rules)
    (hrefs : rules.Visits (walk.enter name) (rules.references name) (.ok inner)) :
    (inner.leave name).IsSound rules ∧ (inner.leave name).path = walk.path := by
  have hpath : inner.path = name :: walk.path := (hrefs.keeps rfl).1
  exact ⟨h.leave hpath (hrefs.mark?_eq_done rfl), by rw [path_leave, hpath, List.tail_cons]⟩

end IsSound

end Walk

/-- A walk that succeeds is sound if it was so before. -/
theorem Rules.Visits.isSound {rules : Rules} {walk after : Walk} {names : List String}
    {result : Except (List String) Walk} (h : rules.Visits walk names result)
    (hok : result = .ok after) (hwalk : walk.IsSound rules)
    (hnames : ∀ name ∈ names, walk.LeadsTo rules name) : after.IsSound rules := by
  induction h generalizing after with
  | nil walk =>
    obtain rfl := Except.ok.inj hok
    exact hwalk
  | passed _ _ ih => exact ih hok hwalk (List.forall_mem_cons.mp hnames).2
  | closed => simp at hok
  | broken => simp at hok
  | followed hmark hrefs _ ihrefs ihrest =>
    obtain ⟨hname, hothers⟩ := List.forall_mem_cons.mp hnames
    have hinner := ihrefs rfl (hwalk.enter hmark hname) fun next => Walk.leadsTo_enter
    obtain ⟨hleft, hpath⟩ := hinner.leave_of_visits hrefs
    exact ihrest hok hleft fun other hother => (hothers other hother).of_path_eq hpath

end RandomSentences
