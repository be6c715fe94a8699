import PatternCovering.Proofs.CuttingStock.Certificate
import PatternCovering.Proofs.CuttingStock.Patterns
import PatternCovering.Proofs.Generation.Objectives

/-!
# Rolls are bounded from below by their width

Each column of a cover over an instance is a pattern of one roll: the columns of single items because
no item is wider than a roll, and the others because either oracle offers patterns only. Usages that
meet the demands therefore cut at least the total width of the pieces wanted, so that no relaxation
has an objective below that width divided by the width of a roll. Of the engine it is asked only that
the objective of an optimal solve is attained, not that it is the least.
-/

namespace PatternCovering

namespace CuttingStock

variable {ε : Type} {stock : CuttingStock} {engine : Engine ε Rat} {model : ε → Model Rat}

/-- Whether a column is a pattern of one roll, at the cost of one. -/
def IsUnitPattern (stock : CuttingStock) (column : Column Rat) : Prop :=
  IsPattern stock.widths stock.capacity column.counts ∧ column.cost = 1

/-- The column of a single item is a pattern, and so is the empty one that it is for an item that
there is not. -/
theorem isUnitPattern_single (stock : CuttingStock) (item : Nat) :
    stock.IsUnitPattern (Column.single stock.numItems item) := by
  refine ⟨?_, rfl⟩
  rcases Nat.lt_or_ge item stock.numItems with hitem | hitem
  · exact isPattern_single hitem
  · have hzero := stock.isPattern_zero
    rw [length_widths] at hzero
    rwa [Column.single, List.set_eq_of_length_le (by simpa using hitem)]

/-- An oracle of an instance offers patterns only. -/
theorem isUnitPattern_of_price {method : Datum} {fuel room : Nat} {oracle : Oracle Unit Rat}
    (horacle : stock.oracle method PricingSettings.standard fuel room = .ok oracle) {state : Unit}
    {duals : List Rat} {offer : Offer Rat} (h : (oracle.price state duals).2.2 = .ok offer)
    (id : Datum) : stock.IsUnitPattern { offer.column with id } := by
  have hbest := oracle_offersBest (le_refl 0) horacle h
  exact ⟨hbest.pattern, hbest.cost_eq⟩

/-- While a cover is seeded, its columns are patterns. -/
theorem isUnitPattern_seed {cover : Cover ε Rat} (hitems : cover.items = stock.items)
    (h : ∀ column ∈ cover.pool.columns, stock.IsUnitPattern column) (items : List Nat) :
    ∀ column ∈ (cover.seed engine items).1.pool.columns, stock.IsUnitPattern column := by
  refine (Cover.seed_keeps (P := fun cover => cover.items = stock.items ∧
    ∀ column ∈ cover.pool.columns, stock.IsUnitPattern column) ?_ ⟨hitems, h⟩ items).2
  rintro cover item name ⟨hitems, hcolumns⟩
  refine ⟨(cover.items_addColumn engine _ name).trans hitems, ?_⟩
  have hsingle : stock.IsUnitPattern (Column.single cover.numItems item) := by
    rw [Cover.numItems, hitems]
    exact stock.isUnitPattern_single item
  rcases cover.columns_addColumn engine (Column.single cover.numItems item) name with
    hsame | ⟨id, hmore⟩
  · rwa [hsame]
  · rw [hmore]
    exact List.forall_mem_append.mpr ⟨hcolumns, List.forall_mem_singleton.mpr hsingle⟩

/-- However building the cover of an instance ends, its columns are patterns. -/
theorem isUnitPattern_build (stock : CuttingStock) (engine : Engine ε Rat) (problem : Problem ε)
    (name : Datum) (seeded : Bool) :
    ∀ column ∈ (Cover.build engine problem stock.items name seeded).1.pool.columns,
      stock.IsUnitPattern column := by
  have hnone : ∀ column ∈ ([] : List (Column Rat)), stock.IsUnitPattern column :=
    List.forall_mem_nil _
  simp only [Cover.build]
  split
  · exact hnone
  · split
    · exact hnone
    · split
      · exact hnone
      · split
        · exact isUnitPattern_seed rfl hnone _
        · exact hnone

/-- Columns of an instance with usages that meet its demands are a cutting. -/
theorem isCutting_of_meetsDemands {columns : List (Column Rat)} {usages : List Rat}
    (hcolumns : ∀ column ∈ columns, stock.IsUnitPattern column)
    (h : MeetsDemands stock.demands columns usages) :
    stock.IsCutting ((columns.zip usages).map fun used => (used.1.counts, used.2)) := by
  refine ⟨List.forall_mem_map.mpr fun used hused => ?_,
    List.forall_mem_map.mpr fun used hused => ?_, fun item demand hdemand => ?_⟩
  · exact (hcolumns _ (List.of_mem_zip hused).1).1
  · exact h.nonneg _ (List.of_mem_zip hused).2
  · have hyield : (columns.zip usages).map (fun used => (used.1.counts.getD item 0 : Rat) * used.2) =
        List.zipWith (fun column usage => (column.counts.getD item 0 : Rat) * usage) columns
          usages := by
      rw [← List.map_uncurry_zip_eq_zipWith]
      rfl
    rw [List.map_map]
    exact (h.meets item demand hdemand).trans_eq (congrArg List.sum hyield.symm)

/-- Columns at the cost of one cost as much as they are used. -/
theorem expenseOf_eq_sum {columns : List (Column Rat)} {usages : List Rat}
    (hcolumns : ∀ column ∈ columns, stock.IsUnitPattern column)
    (hlength : usages.length = columns.length) : expenseOf columns usages = usages.sum := by
  rw [expenseOf]
  congr 1
  apply List.ext_getElem
  · simp [hlength]
  · intro place hleft hright
    have hcost := (hcolumns _ (List.getElem_mem (hlength ▸ hright))).2
    rw [List.getElem_zipWith, hcost, one_mul]

/-- Widths that are multiplied by counts and added up are what the counts weigh. -/
theorem total_zipWith_mul (widths counts : List Nat) :
    (total (List.zipWith (· * ·) widths counts) : Rat) = weigh (rationals widths) counts := by
  induction widths generalizing counts with
  | nil => simp [total, rationals]
  | cons width widths ih =>
    cases counts with
    | nil => simp [total]
    | cons count counts =>
      change _ = weigh ((width : Rat) :: rationals widths) (count :: counts)
      rw [List.zipWith_cons_cons, total, weigh_cons, ← ih]
      push_cast
      rfl

/-- Usages of columns of an instance that meet its demands need at least as many rolls as if nothing
were wasted. -/
theorem lowerBound_le_expenseOf {columns : List (Column Rat)} {usages : List Rat}
    (hcolumns : ∀ column ∈ columns, stock.IsUnitPattern column)
    (h : MeetsDemands stock.demands columns usages) :
    (stock.totalWidth : Rat) / stock.capacity ≤ expenseOf columns usages := by
  have hcapacity : (0 : Rat) < stock.capacity := by exact_mod_cast stock.capacity_pos
  have hwidths : ∀ width ∈ rationals stock.widths, 0 ≤ width :=
    List.forall_mem_map.mpr fun width _ => Nat.cast_nonneg width
  have hcut := weigh_demands_le_mul hwidths (fun _ hpattern => hpattern.2)
    (isCutting_of_meetsDemands hcolumns h)
  have hrolls : ((columns.zip usages).map fun used => (used.1.counts, used.2)).map (·.2) = usages := by
    rw [List.map_map]
    exact List.map_snd_zip h.length_eq.le
  rw [hrolls] at hcut
  rw [expenseOf_eq_sum hcolumns h.length_eq, div_le_iff₀ hcapacity, mul_comm, totalWidth,
    total_zipWith_mul]
  exact hcut

/-- No relaxation over patterns of an instance has an objective below the number of rolls if nothing
were wasted, if the engine attains its objectives. -/
theorem exists_objective {cover after : Cover ε Rat} (hattains : engine.Attains model)
    (hmirrored : cover.Mirrored model) (hitems : cover.items = stock.items)
    (hcolumns : ∀ column ∈ cover.pool.columns, stock.IsUnitPattern column) {tolerance : Rat}
    {solution : CoverSolution Rat}
    (h : cover.solveRelaxation engine tolerance = (after, .ok solution)) :
    ∃ objective, solution.objective = some objective ∧
      (stock.totalWidth : Rat) / stock.capacity ≤ objective := by
  obtain ⟨usages, hmeets, hobjective⟩ := hmirrored.exists_expense hattains h
  rw [hitems] at hmeets
  exact ⟨_, hobjective, lowerBound_le_expenseOf hcolumns hmeets⟩

/-- The covers at the points of a run over an instance: while the columns of single items are added,
at the points of column generation, and at the end, whether the run fails or not. -/
inductive Passes (stock : CuttingStock) (engine : Engine ε Rat) (problem : Problem ε)
    (method : Datum) (settings : Except Fault (GenerationSettings Rat)) (feasibility : Rat)
    (fuel room : Nat) : Cover ε Rat → Prop
  | seeding {created ruled : Problem ε} {rows : List Handle}
    (hcreate : problem.create engine stock.problemName .minimize = (created, .ok ()))
    (hrows : Cover.addRows engine 0 stock.items created [] = ((ruled, rows), .ok ()))
    (numSeeded : Nat) : Passes stock engine problem method settings feasibility fuel room
      (Cover.seed engine { items := stock.items, problem := ruled, rows }
        ((List.range stock.numItems).take numSeeded)).1
  | running {cover : Cover ε Rat} {oracle : Oracle Unit Rat} {given : GenerationSettings Rat}
    {point : Generation.Progress ε Unit Rat}
    (hbuild : Cover.build engine problem stock.items stock.problemName true = (cover, .ok ()))
    (horacle : stock.oracle method PricingSettings.standard fuel room = .ok oracle)
    (hsettings : settings = .ok given)
    (h : Generation.Passes { engine, oracle, settings := given, feasibility }
      { cover, oracle := () } point) :
    Passes stock engine problem method settings feasibility fuel room point.cover
  | ended : Passes stock engine problem method settings feasibility fuel room
      (stock.solve engine problem method settings feasibility fuel room).1

section Run

variable {problem : Problem ε} {method : Datum} {settings : Except Fault (GenerationSettings Rat)}
  {feasibility : Rat} {fuel room : Nat} {cover : Cover ε Rat} {oracle : Oracle Unit Rat}
  {given : GenerationSettings Rat}

/-- At each point of column generation over an instance the columns are patterns. -/
theorem isUnitPattern_running
    (hbuild : Cover.build engine problem stock.items stock.problemName true = (cover, .ok ()))
    (horacle : stock.oracle method PricingSettings.standard fuel room = .ok oracle)
    {point : Generation.Progress ε Unit Rat}
    (h : Generation.Passes { engine, oracle, settings := given, feasibility }
      { cover, oracle := () } point) :
    ∀ column ∈ point.cover.pool.columns, stock.IsUnitPattern column := by
  have hfirst := stock.isUnitPattern_build engine problem stock.problemName true
  rw [hbuild] at hfirst
  exact h.columns hfirst fun _ _ _ id hprice => isUnitPattern_of_price horacle hprice id

/-- However a run over an instance ends, its columns are patterns. -/
theorem isUnitPattern_ended (stock : CuttingStock) (engine : Engine ε Rat) (problem : Problem ε)
    (method : Datum) (settings : Except Fault (GenerationSettings Rat)) (feasibility : Rat)
    (fuel room : Nat) :
    ∀ column ∈ (stock.solve engine problem method settings feasibility fuel room).1.pool.columns,
      stock.IsUnitPattern column := by
  have hbuilt := stock.isUnitPattern_build engine problem stock.problemName true
  simp only [solve]
  split
  · next cover fault hbuild =>
    rw [hbuild] at hbuilt
    exact hbuilt
  · next cover hbuild =>
    rw [hbuild] at hbuilt
    split
    · exact hbuilt
    · next generation hgeneration =>
      obtain ⟨oracle, horacle, hgeneration⟩ := bind_eq_ok.mp hgeneration
      obtain ⟨given, -, hgeneration⟩ := bind_eq_ok.mp hgeneration
      obtain ⟨_, -, hgeneration⟩ := bind_eq_ok.mp hgeneration
      obtain rfl := Except.ok.inj hgeneration
      obtain ⟨point, hpoint, hpool, -⟩ := Generation.exists_passes_solve
        { engine, oracle, settings := given, feasibility } cover ()
      have hended := isUnitPattern_running hbuild horacle hpoint
      rw [← hpool] at hended
      split
      · next progress fault hsolve =>
        rw [hsolve] at hended
        exact hended
      · next progress outcome hsolve =>
        rw [hsolve] at hended
        split
        · exact hended
        · rw [(Cover.noted_tell _ _).pool_eq]
          exact hended

/-- At each point of a run over an instance the columns are patterns. -/
theorem Passes.isUnitPattern
    (h : stock.Passes engine problem method settings feasibility fuel room cover) :
    ∀ column ∈ cover.pool.columns, stock.IsUnitPattern column := by
  cases h with
  | seeding _ _ numSeeded => exact isUnitPattern_seed rfl (List.forall_mem_nil _) _
  | running hbuild horacle _ hpoint => exact isUnitPattern_running hbuild horacle hpoint
  | ended => exact isUnitPattern_ended stock engine problem method settings feasibility fuel room

end Run

section Objectives

variable {state : ε} {listener : Listener} {method : Datum} {feasibility : Rat} {fuel room : Nat}
  {cover : Cover ε Rat} {oracle : Oracle Unit Rat} {given : GenerationSettings Rat}

/-- Each relaxation of a run over an instance has an objective, and it is not below the number of
rolls if nothing were wasted. -/
theorem exists_objective_of_reaches (hrecords : engine.Records model)
    (hattains : engine.Attains model)
    (hbuild : Cover.build engine { engine := state, listener } stock.items stock.problemName true =
      (cover, .ok ()))
    (horacle : stock.oracle method PricingSettings.standard fuel room = .ok oracle)
    {progress : Generation.Progress ε Unit Rat} {relaxed : Cover ε Rat}
    {solution : CoverSolution Rat}
    (hreaches : Generation.Reaches { engine, oracle, settings := given, feasibility }
      { cover, oracle := () } progress)
    (h : progress.cover.solveRelaxation engine feasibility = (relaxed, .ok solution)) :
    ∃ objective, solution.objective = some objective ∧
      (stock.totalWidth : Rat) / stock.capacity ≤ objective := by
  obtain ⟨hbuilt, hitems, -⟩ := Cover.Mirrored.of_build hrecords hbuild
  obtain ⟨hmirrored, hsame⟩ := Generation.mirrored_of_reaches hrecords hbuilt hreaches
  exact exists_objective hattains hmirrored (hsame.trans hitems)
    (isUnitPattern_running hbuild horacle (.before hreaches)) h

end Objectives

/-- At every point of a run over an instance the columns are patterns of one roll, and every objective
in the history is at least the number of rolls if nothing were wasted. So is the number of rolls of
the plan, which there is if the budget allows a round. -/
theorem lowerBound_le_objectives (hrecords : engine.Records model) (hattains : engine.Attains model)
    (stock : CuttingStock) (state : ε) (listener : Listener) (method : Datum)
    (settings : Except Fault (GenerationSettings Rat)) (feasibility : Rat) (fuel room : Nat) :
    (∀ cover, stock.Passes engine { engine := state, listener } method settings feasibility fuel room
      cover → ∀ column ∈ cover.pool.columns,
        IsPattern stock.widths stock.capacity column.counts) ∧
    (∀ cover oracle given point,
      Cover.build engine { engine := state, listener } stock.items stock.problemName true =
        (cover, .ok ()) →
      stock.oracle method PricingSettings.standard fuel room = .ok oracle → settings = .ok given →
      Generation.Passes { engine, oracle, settings := given, feasibility } { cover, oracle := () }
        point →
      ∀ done ∈ point.history, ∃ objective, done.objective = some objective ∧
        (stock.totalWidth : Rat) / stock.capacity ≤ objective) ∧
    (∀ given after plan, settings = .ok given →
      stock.solve engine { engine := state, listener } method settings feasibility fuel room =
        (after, .ok plan) →
      plan.lowerBound = stock.totalWidth / stock.capacity ∧
        (∀ rolls ∈ plan.rolls, plan.lowerBound ≤ rolls) ∧
        (1 ≤ given.rounds → plan.rolls.isSome)) := by
  refine ⟨fun cover h column hcolumn => (h.isUnitPattern column hcolumn).1, ?_, ?_⟩
  · intro cover oracle given point hbuild horacle _ hpoint
    refine hpoint.history (List.forall_mem_nil _) fun _ _ _ hreaches hrelaxed done hdone => ?_
    rw [hdone]
    exact exists_objective_of_reaches hrecords hattains hbuild horacle hreaches hrelaxed
  · rintro given after plan rfl hsolve
    obtain ⟨cover, oracle, same, progress, outcome, bound, hbuild, horacle, hsame, hrun, hbound,
      hplan⟩ := of_solve hsolve
    obtain rfl := Except.ok.inj hsame
    obtain ⟨wholeRolls, hmade⟩ := CuttingPlan.exists_ofOutcome outcome bound
    obtain rfl := Except.ok.inj (hmade.symm.trans hplan)
    have heq : bound = stock.totalWidth / stock.capacity := by
      rw [← Except.ok.inj hbound]
      exact Rat.mkRat_eq_div ..
    rcases Nat.eq_zero_or_pos given.rounds with hnone | hsome
    · have hrolls := Generation.objective_of_no_round hrun hnone
      exact ⟨heq, fun rolls h => by simp [hrolls] at h, fun h => absurd h (by omega)⟩
    · obtain ⟨last, _, _, relaxed, solution, _, hreaches, -, hrelaxed, -, hrolls, -⟩ :=
        Generation.exists_last_of_solve hrun hsome
      obtain ⟨objective, hobjective, hle⟩ :=
        exists_objective_of_reaches hrecords hattains hbuild horacle hreaches hrelaxed
      rw [hobjective] at hrolls
      refine ⟨heq, fun rolls h => ?_, fun _ => by simp [hrolls]⟩
      obtain rfl := Option.some.inj (hrolls.symm.trans h)
      exact heq.trans_le hle

/-- Three pieces of width two from rolls of width five: the columns cut one piece and two, the plan
needs one and a half rolls, and with nothing wasted it would be six fifths. -/
theorem lowerBound_le_on_one_item :
    ∃ (stock : CuttingStock) (after : Cover (Model Rat) Rat) (plan : CuttingPlan Rat),
      (rowEngine 3).Records id ∧ (rowEngine 3).Attains id ∧
      stock.solve (rowEngine 3) { engine := {} } (.text "knapsack")
        (.ok { budget := .int 9, tolerance := 0 }) 0 9 6 = (after, .ok plan) ∧
      after.pool.columns.map (·.counts) = [[1], [2]] ∧
      (∀ column ∈ after.pool.columns, IsPattern stock.widths stock.capacity column.counts) ∧
      plan.rolls = some (3 / 2) ∧ plan.lowerBound = 6 / 5 ∧ plan.lowerBound ≤ 3 / 2 := by
  let stock : CuttingStock := ⟨[⟨2, 3, .null, by decide⟩], 5, .null, by decide, by decide⟩
  have hrun : ((stock.solve (rowEngine 3) { engine := {} } (.text "knapsack")
      (.ok { budget := .int 9, tolerance := 0 }) 0 9 6).1.pool.columns.map (·.counts),
      (stock.solve (rowEngine 3) { engine := {} } (.text "knapsack")
        (.ok { budget := .int 9, tolerance := 0 }) 0 9 6).2.toOption.map
          fun plan => (plan.rolls, plan.lowerBound)) =
      ([[1], [2]], some (some (3 / 2), 6 / 5)) := by decide +kernel
  generalize hsolve : stock.solve (rowEngine 3) { engine := {} } (.text "knapsack")
    (.ok { budget := .int 9, tolerance := 0 }) 0 9 6 = run at hrun
  obtain ⟨after, answer⟩ := run
  obtain ⟨hcolumns, hanswer⟩ := Prod.mk.inj hrun
  obtain ⟨plan, hplan, hparts⟩ := Option.map_eq_some_iff.mp hanswer
  obtain rfl := toOption_eq_some.mp hplan
  obtain ⟨hrolls, hbound⟩ := Prod.mk.inj hparts
  have hrecords := records_rowEngine 3
  have hattains := (solvesExactly_rowEngine 3).attains
  obtain ⟨hpatterns, -, hplans⟩ := lowerBound_le_objectives hrecords hattains stock {}
    Listener.deaf (.text "knapsack") (.ok { budget := .int 9, tolerance := 0 }) 0 9 6
  obtain ⟨-, hle, -⟩ := hplans _ after plan rfl hsolve
  have hended : stock.Passes (rowEngine 3) { engine := {} } (.text "knapsack")
    (.ok { budget := .int 9, tolerance := 0 }) 0 9 6 _ := .ended
  rw [hsolve] at hended
  exact ⟨stock, after, plan, hrecords, hattains, hsolve, hcolumns, hpatterns after hended,
    hrolls, hbound, hle _ hrolls⟩

end CuttingStock

end PatternCovering
