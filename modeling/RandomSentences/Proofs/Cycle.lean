import Mathlib.Data.List.Nodup
import Mathlib.Order.WellFounded
import RandomSentences.Proofs.Walk

/-!
# Cycles that the search reports

`Rules.cycle?` fails on no rules without a cycle: whatever it reports is a closed path of
references on which no rule is met twice (`isCycle_of_cycle?_eq_some`). Together with
`Rules.wellFounded_of_cycle?_eq_none` this makes the search exact: it reports nothing if and only
if no rule leads back to itself along references (`cycle?_eq_none_iff`).

A sound walk reports the part of its path from a name on, when the newest name of the path refers to
that name again. So what is reported is a cycle (`isCycle_closeCycle`), and lies where the path and
the names lead that the walk has gone to (`Visits.isCycle`). `visit_of_isSound` is what a sound walk
comes to from one name, whether or not it meets a cycle.
-/

namespace RandomSentences

namespace Rules

variable {rules : Rules}

/-- `rules.IsCycle cycle`: each name refers to the next one, the last name is the first one
again, and otherwise no name occurs twice. -/
structure IsCycle (rules : Rules) (cycle : List String) : Prop where
  /-- Besides the name that closes the cycle there is another entry. -/
  two_le_length : 2 ≤ cycle.length
  /-- The cycle ends where it starts. -/
  head?_eq_getLast? : cycle.head? = cycle.getLast?
  /-- No name occurs twice before the end. -/
  nodup_dropLast : cycle.dropLast.Nodup
  /-- Every name has a rule. -/
  mem_rules : ∀ name ∈ cycle, name ∈ rules
  /-- Every name refers to the next. -/
  isChain : cycle.IsChain rules.RefersTo

/-- On a path of references, every name but the newest has a rule. -/
theorem mem_rules_of_isChain {name : String} {path : List String}
    (h : (name :: path).IsChain rules.IsReferencedBy) : ∀ other ∈ path, other ∈ rules := by
  induction path generalizing name with
  | nil => simp
  | cons first older ih =>
    rw [List.isChain_cons_cons] at h
    intro other hother
    rcases List.mem_cons.mp hother with rfl | hother
    · exact mem_of_isReferencedBy h.1
    · exact ih h.2 other hother

/-! ### Closing a path -/

/-- Closing a path takes its part up to the last place of the name, turned around. -/
theorem closeCycle_append {walk : Walk} {newer older : List String} {name : String}
    (hpath : walk.path = newer ++ name :: older) (h : name ∉ older) :
    walk.closeCycle name = name :: (newer.reverse ++ [name]) := by
  have hturned : walk.path.reverse = older.reverse ++ name :: newer.reverse := by
    rw [hpath, List.reverse_append, List.reverse_cons, List.append_assoc, List.singleton_append]
  have hplace : (older.reverse ++ name :: newer.reverse).idxOf? name = some older.length := by
    have hskip : older.reverse.idxOf? name = none :=
      List.idxOf?_eq_none_iff.mpr fun hmem => h (List.mem_reverse.mp hmem)
    rw [List.idxOf?, List.findIdx?_append, ← List.idxOf?, hskip]
    simp [List.idxOf?_cons]
  rw [Walk.closeCycle, hturned, hplace, Option.getD_some, ← List.length_reverse, List.drop_left,
    List.cons_append]

/-- A name in progress that is met again on a sound walk closes a cycle. -/
theorem isCycle_closeCycle {walk : Walk} {name : String} (h : walk.IsSound rules)
    (hname : walk.LeadsTo rules name) (hmark : walk.mark? name = some .inProgress) :
    rules.IsCycle (walk.closeCycle name) := by
  obtain ⟨newer, older, hpath⟩ := List.append_of_mem ((h.inProgress_iff name).mp hmark)
  have hchain : (name :: walk.path).IsChain rules.IsReferencedBy :=
    List.isChain_cons.mpr ⟨hname, h.isChain_path⟩
  obtain ⟨hnewer, hold, hdisjoint⟩ := List.nodup_append.mp (hpath ▸ h.nodup_path)
  have hnewer' : name ∉ newer := fun h => hdisjoint name h name (List.mem_cons_self ..) rfl
  rw [closeCycle_append hpath (List.nodup_cons.mp hold).1]
  -- the names from the first meeting to the second, newest first
  have hpart : (name :: (newer ++ [name])).IsChain rules.IsReferencedBy := by
    have happend : ((name :: (newer ++ [name])) ++ older).IsChain rules.IsReferencedBy := by
      simpa [hpath] using hchain
    exact happend.left_of_append
  refine ⟨by simp, ?_, ?_, fun other hother => ?_, ?_⟩
  · rw [← List.cons_append, List.getLast?_concat, List.cons_append, List.head?_cons]
  · rw [← List.cons_append, List.dropLast_concat]
    exact List.nodup_cons.mpr ⟨by simpa using hnewer', List.nodup_reverse.mpr hnewer⟩
  · exact mem_rules_of_isChain hpart other (by simpa [or_comm] using hother)
  · have hturned : (name :: (newer ++ [name])).reverse.IsChain rules.RefersTo :=
      List.isChain_reverse.mpr hpart
    simpa using hturned

/-- Besides the name that closes it, a cycle that is reported holds names of the path. -/
theorem mem_of_mem_closeCycle {walk : Walk} {name other : String}
    (h : other ∈ walk.closeCycle name) : other ∈ name :: walk.path := by
  rw [Walk.closeCycle, List.mem_append, List.mem_singleton] at h
  rcases h with h | rfl
  · exact List.mem_cons_of_mem _ (List.mem_reverse.mp (List.mem_of_mem_drop h))
  · exact List.mem_cons_self ..

/-! ### Walks that fail -/

/-- A sound walk that fails reports a cycle. The names it was to go to, or those of its path, lead
to all of the cycle. -/
theorem Visits.isCycle {walk : Walk} {names cycle : List String}
    {result : Except (List String) Walk} (h : rules.Visits walk names result)
    (herror : result = .error cycle) (hwalk : walk.IsSound rules)
    (hnames : ∀ name ∈ names, walk.LeadsTo rules name) :
    rules.IsCycle cycle ∧ ∀ other ∈ cycle,
      ∃ first ∈ names ++ walk.path, Relation.ReflTransGen rules.RefersTo first other := by
  induction h with
  | nil => simp at herror
  | passed _ _ ih =>
    obtain ⟨hcycle, hleads⟩ := ih herror hwalk (List.forall_mem_cons.mp hnames).2
    refine ⟨hcycle, fun other hother => ?_⟩
    obtain ⟨first, hfirst, hreach⟩ := hleads other hother
    exact ⟨first, List.mem_cons_of_mem _ hfirst, hreach⟩
  | @closed walk name names hmark =>
    obtain rfl := Except.error.inj herror
    have hname := (List.forall_mem_cons.mp hnames).1
    refine ⟨isCycle_closeCycle hwalk hname hmark, fun other hother => ⟨other, ?_, .refl⟩⟩
    rcases List.mem_cons.mp (mem_of_mem_closeCycle hother) with rfl | hother
    · exact List.mem_cons_self ..
    · exact List.mem_append_right _ hother
  | @broken walk name names met hmark _ ih =>
    have hname := (List.forall_mem_cons.mp hnames).1
    obtain ⟨hcycle, hleads⟩ :=
      ih herror (hwalk.enter hmark hname) fun next => Walk.leadsTo_enter
    refine ⟨hcycle, fun other hother => ?_⟩
    obtain ⟨first, hfirst, hreach⟩ := hleads other hother
    -- the references of the name are reached from it, and the name itself is the newest of the path
    rcases List.mem_append.mp hfirst with hnext | hpath
    · exact ⟨name, List.mem_cons_self .., .head hnext hreach⟩
    · rcases List.mem_cons.mp hpath with rfl | hpath
      · exact ⟨first, List.mem_cons_self .., hreach⟩
      · exact ⟨first, List.mem_append_right _ hpath, hreach⟩
  | @followed walk inner name names result hmark hrefs _ _ ih =>
    obtain ⟨hname, hothers⟩ := List.forall_mem_cons.mp hnames
    have hinner := hrefs.isSound rfl (hwalk.enter hmark hname) fun next => Walk.leadsTo_enter
    obtain ⟨hleft, hpath⟩ := hinner.leave_of_visits hrefs
    obtain ⟨hcycle, hleads⟩ :=
      ih herror hleft fun other hother => (hothers other hother).of_path_eq hpath
    refine ⟨hcycle, fun other hother => ?_⟩
    obtain ⟨first, hfirst, hreach⟩ := hleads other hother
    exact ⟨first, List.mem_cons_of_mem _ (hpath ▸ hfirst), hreach⟩

/-- What the search reports is a cycle. -/
theorem isCycle_of_cycle?_eq_some {cycle : List String} (h : rules.cycle? = some cycle) :
    rules.IsCycle cycle := by
  unfold cycle? at h
  split at h
  · rename_i found hfound
    obtain rfl : found = cycle := by simpa using h
    exact ((rules.visits_foldlM_visit .start rules.keys).isCycle hfound (.start rules)
      fun name _ => Walk.leadsTo_start rules name).1
  · simp at h

/-! ### Exactness -/

/-- On a cycle some name leads back to itself. -/
theorem IsCycle.exists_transGen {cycle : List String} (h : rules.IsCycle cycle) :
    ∃ name, Relation.TransGen rules.RefersTo name name := by
  obtain ⟨first, second, others, rfl⟩ :
      ∃ first second others, cycle = first :: second :: others := by
    match cycle, h.two_le_length with
    | first :: second :: others, _ => exact ⟨first, second, others, rfl⟩
  obtain ⟨hstep, hrest⟩ := List.isChain_cons_cons.mp h.isChain
  have hlast : (second :: others).getLast (List.cons_ne_nil _ _) = first := by
    have := h.head?_eq_getLast?
    simpa [List.getLast?_eq_some_getLast, eq_comm] using this
  exact ⟨first, Relation.TransGen.head' hstep
    (List.relationReflTransGen_of_exists_isChain_cons others hrest hlast)⟩

/-- Where references lead on only finitely far, no name leads back to itself. -/
theorem not_transGen_of_wellFounded (h : WellFounded rules.IsReferencedBy) (name : String) :
    ¬ Relation.TransGen rules.RefersTo name name := fun hname =>
  h.transGen.irrefl.irrefl name (Relation.transGen_swap.mp hname)

/-- The search reports nothing exactly if no name leads back to itself along references. -/
theorem cycle?_eq_none_iff :
    rules.cycle? = none ↔ ∀ name, ¬ Relation.TransGen rules.RefersTo name name := by
  constructor
  · intro h
    exact not_transGen_of_wellFounded (wellFounded_of_cycle?_eq_none h)
  · intro h
    cases hcycle : rules.cycle? with
    | none => rfl
    | some cycle =>
      obtain ⟨name, hname⟩ := (isCycle_of_cycle?_eq_some hcycle).exists_transGen
      exact absurd hname (h name)

/-! ### One walk of the search -/

/-- **Going on to one name.** A sound walk goes on to a name that the newest name of its path refers
to. It ends, and with one result only. If it succeeds, then its path is what it was, everything that
the name leads to is done, every mark that was there is what it was, and the walk is sound again. If
it fails, then it reports a cycle to which the name or its path leads. -/
theorem visit_of_isSound {walk : Walk} {name : String} (hwalk : walk.IsSound rules)
    (hname : walk.LeadsTo rules name) :
    (∀ result, rules.Visits walk [name] result ↔ result = rules.visit walk name) ∧
    (∀ after, rules.visit walk name = .ok after →
      after.path = walk.path ∧
      (∀ other, Relation.ReflTransGen rules.RefersTo name other → after.mark? other = some .done) ∧
      (∀ other mark, walk.mark? other = some mark → after.mark? other = some mark) ∧
      after.IsSound rules ∧ after.LeadsTo rules name) ∧
    ∀ cycle, rules.visit walk name = .error cycle →
      rules.IsCycle cycle ∧ ∀ other ∈ cycle,
        ∃ first ∈ name :: walk.path, Relation.ReflTransGen rules.RefersTo first other := by
  have hvisits : rules.Visits walk [name] (rules.visit walk name) := visits_iff.mpr rfl
  have hnames : ∀ other ∈ [name], walk.LeadsTo rules other :=
    List.forall_mem_singleton.mpr hname
  refine ⟨fun result => visits_iff, fun after hok => ?_, fun cycle herror => ?_⟩
  · obtain ⟨hpath, hmarks⟩ := hvisits.keeps hok
    have hafter := hvisits.isSound hok hwalk hnames
    have hdone := hvisits.mark?_eq_done hok name (List.mem_singleton_self name)
    have hreached : ∀ other, Relation.ReflTransGen rules.RefersTo name other →
        after.mark? other = some .done := fun other hleads =>
      Walk.done_of_reflTransGen hafter.done_of_refersTo hdone hleads
    exact ⟨hpath, hreached, hmarks, hafter, hname.of_path_eq hpath⟩
  · exact hvisits.isCycle herror hwalk hnames

/-- The rooms of a house, where one gets from the garden back to the hall. -/
def house : Rules :=
  (Tokens.ofPairs [("Attic", ["Cellar loft"]), ("Cellar", ["wine"]), ("Garden", ["path Hall"]),
    ("Hall", ["Attic Cellar", "Garden"])]).classify

/-- A walk that is in the hall and has been in the cellar. -/
def tour : Walk :=
  ((Walk.start.enter "Hall").enter "Cellar").leave "Cellar"

theorem isSound_tour : tour.IsSound house := by
  have hhall : (Walk.start.enter "Hall").IsSound house :=
    (Walk.IsSound.start house).enter (Walk.mark?_start _) (Walk.leadsTo_start _ _)
  have hrefers : "Cellar" ∈ house.references "Hall" := by decide +kernel
  have hcellar : ((Walk.start.enter "Hall").enter "Cellar").IsSound house :=
    hhall.enter (by simp) (Walk.leadsTo_enter hrefers)
  have hnone : house.references "Cellar" = [] := by decide +kernel
  exact hcellar.leave rfl (by simp [hnone])

/-- From the hall, the attic is done after the cellar, and the garden closes a cycle. -/
theorem visit_of_isSound_house :
    tour.IsSound house ∧ tour.LeadsTo house "Attic" ∧ tour.LeadsTo house "Garden" ∧
    (∃ after, house.visit tour "Attic" = .ok after ∧ after.path = ["Hall"] ∧
      after.mark? "Attic" = some .done ∧ after.mark? "Cellar" = some .done ∧
      after.mark? "Hall" = some .inProgress ∧ after.IsSound house) ∧
    house.visit tour "Garden" = .error ["Hall", "Garden", "Hall"] ∧
    house.IsCycle ["Hall", "Garden", "Hall"] ∧ ∀ other ∈ ["Hall", "Garden", "Hall"],
      ∃ first ∈ ["Garden", "Hall"], Relation.ReflTransGen house.RefersTo first other := by
  have hattic : tour.LeadsTo house "Attic" := by
    have hmem : "Attic" ∈ house.references "Hall" := by decide +kernel
    simpa [Walk.LeadsTo, tour, RefersTo] using hmem
  have hgarden : tour.LeadsTo house "Garden" := by
    have hmem : "Garden" ∈ house.references "Hall" := by decide +kernel
    simpa [Walk.LeadsTo, tour, RefersTo] using hmem
  refine ⟨isSound_tour, hattic, hgarden, ?_, ?_⟩
  · have hok : (house.visit tour "Attic").isOk = true := by decide +kernel
    cases hresult : house.visit tour "Attic" with
    | error cycle => simp [hresult, Except.isOk, Except.toBool] at hok
    | ok after =>
      obtain ⟨-, hsucceeds, -⟩ := visit_of_isSound isSound_tour hattic
      obtain ⟨hpath, hdone, hmarks, hafter, -⟩ := hsucceeds after hresult
      exact ⟨after, rfl, hpath, hdone "Attic" .refl, hmarks "Cellar" .done (by simp [tour]),
        hmarks "Hall" .inProgress (by simp [tour]), hafter⟩
  · have hrefs : house.references "Garden" = ["Hall"] := by decide +kernel
    have hcycle : (tour.enter "Garden").closeCycle "Hall" = ["Hall", "Garden", "Hall"] := by decide
    have hclosed : house.Visits (tour.enter "Garden") (house.references "Garden")
        (.error ["Hall", "Garden", "Hall"]) := by
      rw [hrefs, ← hcycle]
      exact .closed (by simp [tour])
    have hvisits : house.Visits tour ["Garden"] (.error ["Hall", "Garden", "Hall"]) :=
      .broken (by simp [tour]) hclosed
    have hresult := (visits_iff.mp hvisits).symm
    obtain ⟨-, -, hfails⟩ := visit_of_isSound isSound_tour hgarden
    exact ⟨hresult, hfails _ hresult⟩

end Rules

end RandomSentences
