import PatternCovering.Proofs.Cover.Recorded
import PatternCovering.Proofs.Generation.Points
import PatternCovering.Proofs.Model.OneRow
import PatternCovering.Rehearsal

/-!
# The objectives of a run

With an engine that solves the recorded model exactly, each relaxation has the least expense of
meeting the demands by the columns that are known then. The first one knows the columns of single
items only, and each later one knows all columns of the one before and at most one more, so that the
objectives never rise. Nothing is assumed of the oracle, of the observers or of the listener: the
columns that are offered may be of any cost and of any use.
-/

namespace PatternCovering

variable {ε σ : Type}

/-- Natural numbers add up the same as rationals. -/
theorem sum_rationals (numbers : List Nat) : (rationals numbers).sum = (total numbers : Rat) := by
  induction numbers with
  | nil => simp [total]
  | cons number rest ih =>
    rw [rationals, List.map_cons, List.sum_cons, total, Nat.cast_add]
    exact congrArg ((number : Rat) + ·) ih

namespace Cover

variable {engine : Engine ε Rat} {model : ε → Model Rat} {cover after : Cover ε Rat}

/-- The objective of a relaxation is attained by usages of the known columns that meet the demands, if
the engine attains its objectives. -/
theorem Mirrored.exists_expense (h : cover.Mirrored model) (hattains : engine.Attains model)
    {tolerance : Rat} {solution : CoverSolution Rat}
    (hsolve : cover.solveRelaxation engine tolerance = (after, .ok solution)) :
    ∃ usages, MeetsDemands (cover.items.map (·.demand)) cover.pool.columns usages ∧
      solution.objective = some (expenseOf cover.pool.columns usages) := by
  obtain ⟨state, hengine, hobjective, -⟩ := reports_of_solveRelaxation hsolve
  obtain ⟨value, hvalue, hsame⟩ :=
    hattains _ _ _ hengine h.mirrors.isContinuous hobjective
  obtain ⟨usages, hmeets, rfl⟩ := h.mirrors.mem_attained_iff.mp hvalue
  exact ⟨usages, hmeets, hsame⟩

/-- The objective of a relaxation is the least expense of meeting the demands by the known columns, if
the engine solves exactly. -/
theorem Mirrored.exists_leastExpense (h : cover.Mirrored model) (hexact : engine.SolvesExactly model)
    {tolerance : Rat} {solution : CoverSolution Rat}
    (hsolve : cover.solveRelaxation engine tolerance = (after, .ok solution)) :
    ∃ value, solution.objective = some value ∧
      IsLeastExpense (cover.items.map (·.demand)) cover.pool.columns value := by
  obtain ⟨state, hengine, hobjective, -⟩ := reports_of_solveRelaxation hsolve
  obtain ⟨value, hoptimum, hsame⟩ := hexact _ _ _ hengine h.mirrors.isContinuous hobjective
  exact ⟨value, hsame, h.mirrors.isOptimum_iff.mp hoptimum⟩

end Cover

namespace Generation

variable {generation : Generation ε σ Rat} {model : ε → Model Rat}
  {progress after : Progress ε σ Rat}

/-- A round leaves a cover that is recorded, with the same columns or with one more. -/
theorem mirrored_of_round (hrecords : generation.engine.Records model)
    (h : progress.cover.Mirrored model) {result : Option GenerationStatus}
    (hround : generation.round progress = (after, .ok result)) :
    after.cover.Mirrored model ∧ after.cover.items = progress.cover.items ∧
      (after.cover.pool.columns = progress.cover.pool.columns ∨
        ∃ column, after.cover.pool.columns = progress.cover.pool.columns ++ [column]) := by
  obtain ⟨relaxed, solution, asked, grown, done, hrelaxed, hasked, hgrown, hnoted, -⟩ :=
    parts_of_round hround
  obtain ⟨hpool, hitems⟩ := Cover.pool_of_solveRelaxation hrelaxed
  have hmirrored := (h.solveRelaxation hrecords hrelaxed).noted hasked
  have hcolumns : asked.pool.columns = progress.cover.pool.columns := by rw [hasked.pool_eq, hpool]
  have hsame : asked.items = progress.cover.items := by rw [hasked.items_eq, hitems]
  rw [hnoted.pool_eq, hnoted.items_eq]
  rcases hgrown with rfl | ⟨offer, stored, -, hadded⟩
  · exact ⟨hmirrored.noted hnoted, hsame, Or.inl hcolumns⟩
  · refine ⟨(hmirrored.addColumn hrecords hadded).noted hnoted, ?_, Or.inr ⟨stored, ?_⟩⟩
    · rw [Cover.items_of_addColumn hadded, hsame]
    · rw [(Cover.columns_of_addColumn hadded).2, hcolumns]

/-- Before each round of a run the cover is recorded, if it was at first. -/
theorem mirrored_of_reaches (hrecords : generation.engine.Records model)
    {first : Progress ε σ Rat} (h : first.cover.Mirrored model)
    (hreaches : generation.Reaches first progress) :
    progress.cover.Mirrored model ∧ progress.cover.items = first.cover.items := by
  induction hreaches with
  | refl => exact ⟨h, rfl⟩
  | round _ hround ih =>
    obtain ⟨hmirrored, hitems, -⟩ := mirrored_of_round hrecords ih.1 hround
    exact ⟨hmirrored, hitems.trans ih.2⟩

/-- What is known before a round of a run: the objectives so far are those in the history, they never
rose, none is below the least expense with the columns that are known now, and the first one is the
number of pieces wanted. -/
structure Falling (model : ε → Model Rat) (items : List Item) (objectives : List Rat)
    (progress : Progress ε σ Rat) : Prop where
  mirrored : progress.cover.Mirrored model
  items_eq : progress.cover.items = items
  history_eq : progress.history.map (·.objective) = objectives.map some
  pairwise : objectives.Pairwise (· ≥ ·)
  least_le : ∀ least, IsLeastExpense (items.map (·.demand)) progress.cover.pool.columns least →
    ∀ objective ∈ objectives, least ≤ objective
  first_eq : ∀ objective ∈ objectives.head?, objective = (total (items.map (·.demand)) : Rat)
  singles : objectives = [] → AreSingles items.length progress.cover.pool.columns
  solution_eq : progress.solution.bind (·.objective) = objectives.getLast?

namespace Falling

variable {items : List Item} {objectives : List Rat}

/-- A round adds an objective that is not above the earlier ones. -/
theorem round (h : Falling model items objectives progress)
    (hrecords : generation.engine.Records model) (hexact : generation.engine.SolvesExactly model)
    {result : Option GenerationStatus} (hround : generation.round progress = (after, .ok result)) :
    ∃ objective, Falling model items (objectives ++ [objective]) after := by
  obtain ⟨hmirrored, hitems, hcolumns⟩ := mirrored_of_round hrecords h.mirrored hround
  obtain ⟨relaxed, solution, -, -, done, hrelaxed, -, -, -, hdone, hhistory, hsolution⟩ :=
    parts_of_round hround
  obtain ⟨objective, hobjective, hleast⟩ := h.mirrored.exists_leastExpense hexact hrelaxed
  rw [h.items_eq] at hleast
  have hbelow := h.least_le objective hleast
  have hnext : ∀ least, IsLeastExpense (items.map (·.demand)) after.cover.pool.columns least →
      least ≤ objective := by
    intro least hnew
    rcases hcolumns with hsame | ⟨column, hmore⟩
    · rw [hsame] at hnew
      exact (hnew.unique hleast).le
    · rw [hmore] at hnew
      exact hleast.concat_le hnew
  refine ⟨objective, hmirrored, hitems.trans h.items_eq, ?_, ?_, ?_, ?_, by simp, ?_⟩
  · rw [hhistory, List.map_append, h.history_eq, List.map_append, List.map_singleton,
      List.map_singleton, hdone, hobjective]
  · refine List.pairwise_append.mpr ⟨h.pairwise, List.pairwise_singleton _ _, ?_⟩
    intro earlier hearlier last hlast
    rw [List.mem_singleton.mp hlast]
    exact hbelow earlier hearlier
  · intro least hnew known hknown
    rcases List.mem_append.mp hknown with hknown | hknown
    · exact (hnext least hnew).trans (hbelow known hknown)
    · rw [List.mem_singleton.mp hknown]
      exact hnext least hnew
  · cases objectives with
    | nil =>
      have hsingles : AreSingles (items.map (·.demand)).length progress.cover.pool.columns := by
        rw [List.length_map]
        exact h.singles rfl
      rintro first ⟨⟩
      rw [hleast.unique hsingles.isLeastExpense, sum_rationals]
    | cons first rest => exact h.first_eq
  · rw [hsolution, List.getLast?_concat]
    exact hobjective

/-- Before each round of a run the objectives have never risen. -/
theorem of_reaches {first : Progress ε σ Rat} (h : Falling model items [] first)
    (hrecords : generation.engine.Records model) (hexact : generation.engine.SolvesExactly model)
    (hreaches : generation.Reaches first progress) :
    ∃ objectives, Falling model items objectives progress := by
  induction hreaches with
  | refl => exact ⟨[], h⟩
  | round _ hround ih =>
    obtain ⟨objectives, hfalling⟩ := ih
    obtain ⟨objective, hnext⟩ := hfalling.round hrecords hexact hround
    exact ⟨_, hnext⟩

end Falling

/-- The objectives of a run over a cover that was built with the columns of single items never rise.
The first one is the number of pieces wanted, and the last one, which is the least, is the objective
of the result. -/
theorem objectives_never_rise (hrecords : generation.engine.Records model)
    (hexact : generation.engine.SolvesExactly model) {state : ε} {listener : Listener}
    {items : List Item} {name : Datum} {cover : Cover ε Rat}
    (hbuild : Cover.build generation.engine { engine := state, listener } items name true =
      (cover, .ok ())) {oracle : σ} {outcome : Outcome Rat}
    (hsolve : generation.solve cover oracle = (after, .ok outcome)) :
    ∃ objectives : List Rat,
      outcome.history.map (·.objective) = objectives.map some ∧ objectives.Pairwise (· ≥ ·) ∧
      objectives.head? =
        (if generation.settings.rounds = 0 then none
          else some (total (items.map (·.demand)) : Rat)) ∧
      outcome.objective = objectives.getLast? ∧
      ∀ last ∈ outcome.objective, ∀ objective ∈ objectives, last ≤ objective := by
  obtain ⟨ended, status, found, hloop, hfound, ⟨_, _, rfl⟩, -⟩ := exists_loop_of_solve hsolve
  obtain ⟨columns, -, hfound⟩ := bind_eq_ok.mp hfound
  obtain rfl := Except.ok.inj hfound
  obtain ⟨hmirrored, hitems, hsingles⟩ := Cover.Mirrored.of_build hrecords hbuild
  have hfirst : Falling model items [] ({ cover, oracle } : Progress ε σ Rat) :=
    ⟨hmirrored, hitems, rfl, .nil, fun _ _ _ h => absurd h List.not_mem_nil,
      fun _ h => absurd h (by simp), fun _ => hsingles, rfl⟩
  rcases Nat.eq_zero_or_pos generation.settings.rounds with hnone | hsome
  · rw [hnone, loop] at hloop
    obtain ⟨-, noted, -, rfl⟩ := of_close hloop
    exact ⟨[], rfl, .nil, by simp [hnone], rfl, fun _ h => absurd h (by simp)⟩
  · obtain ⟨last, final, result, noted, hreaches, hround, -, rfl⟩ :=
      exists_last_of_loop hsome .refl hloop
    obtain ⟨earlier, hfalling⟩ := hfirst.of_reaches hrecords hexact hreaches
    obtain ⟨objective, hended⟩ := hfalling.round hrecords hexact hround
    refine ⟨earlier ++ [objective], hended.history_eq, hended.pairwise, ?_, hended.solution_eq, ?_⟩
    · rw [if_neg (by omega)]
      obtain ⟨head, hhead⟩ : ∃ head, (earlier ++ [objective]).head? = some head :=
        ⟨_, List.head?_eq_some_head (by simp)⟩
      rw [hhead, hended.first_eq head hhead]
    · intro least hleast known hknown
      have hsame : some objective = some least := by
        rw [← hleast]
        exact (List.getLast?_concat.symm.trans hended.solution_eq.symm)
      rw [← Option.some.inj hsame]
      rcases List.mem_append.mp hknown with hknown | hknown
      · exact (List.pairwise_append.mp hended.pairwise).2.2 known hknown objective
          List.mem_cons_self
      · rw [List.mem_singleton.mp hknown]

/-- A run over one item with an exact engine, in which a column with two copies is offered first and
then nothing. -/
def exactRun : Generation (Model Rat) (Rehearsal.State Rat) Rat where
  engine := rowEngine 3
  oracle := Rehearsal.oracle
    (⟨1, [some (-1), none], none, PricingSettings.standard⟩ : Rehearsal Int Rat)
  settings := { budget := .int 9, tolerance := 0 }
  feasibility := 0

/-- The three pieces of one item cost three, and one and a half once two are cut together. -/
theorem objectives_of_exactRun :
    ∃ (cover : Cover (Model Rat) Rat) (after : Progress (Model Rat) (Rehearsal.State Rat) Rat)
      (outcome : Outcome Rat),
      exactRun.engine.Records id ∧ exactRun.engine.SolvesExactly id ∧
      Cover.build exactRun.engine { engine := {} } [⟨2, 3, .null, by decide⟩] (.text "rolls") true =
        (cover, .ok ()) ∧
      exactRun.solve cover {} = (after, .ok outcome) ∧
      outcome.history.map (·.objective) = [some 3, some (3 / 2)] ∧
      ∃ objectives : List Rat,
        outcome.history.map (·.objective) = objectives.map some ∧ objectives.Pairwise (· ≥ ·) ∧
        objectives.head? = some 3 ∧ outcome.objective = objectives.getLast? := by
  have hrun : ((Cover.build exactRun.engine { engine := {} } [⟨2, 3, .null, by decide⟩]
      (.text "rolls") true).2.toOption,
      (exactRun.solve (Cover.build exactRun.engine { engine := {} } [⟨2, 3, .null, by decide⟩]
        (.text "rolls") true).1 {}).2.toOption.map fun outcome =>
          outcome.history.map (·.objective)) =
      (some (), some [some 3, some (3 / 2)]) := by decide +kernel
  obtain ⟨hcover, houtcome⟩ := Prod.mk.inj hrun
  generalize hbuild : Cover.build exactRun.engine { engine := {} } [⟨2, 3, .null, by decide⟩]
    (.text "rolls") true = built at hcover houtcome
  obtain ⟨cover, answer⟩ := built
  obtain rfl := toOption_eq_some.mp hcover
  obtain ⟨outcome, hsolve, hhistory⟩ := Option.map_eq_some_iff.mp houtcome
  rw [toOption_eq_some] at hsolve
  have hrecords : exactRun.engine.Records id := records_rowEngine 3
  have hexact : exactRun.engine.SolvesExactly id := solvesExactly_rowEngine 3
  obtain ⟨objectives, heq, hpairwise, hhead, hlast, -⟩ :=
    objectives_never_rise hrecords hexact hbuild (Prod.ext rfl hsolve)
  exact ⟨cover, _, outcome, hrecords, hexact, rfl, Prod.ext rfl hsolve, hhistory, objectives,
    heq, hpairwise, hhead.trans (by decide +kernel), hlast⟩

end Generation

end PatternCovering
