import PatternCovering.Proofs.Cover.Usages
import PatternCovering.Proofs.Generation.Run
import PatternCovering.Proofs.Model.Optimum

/-!
# The model of a cover

The model that an engine records for a cover has one row for each item, which asks for the demand,
and one variable for each column, from zero on at the cost of the column and with its counts as
coefficients. Adding a column extends the model by one variable and its coefficients and leaves all
else as it was. Its feasible points are therefore the usages of the columns that meet the demands,
and its optimum is the least expense of meeting them.
-/

namespace PatternCovering

namespace Model

/-- Whether a model is that of covering items by columns. -/
structure Mirrors (model : Model Rat) (items : List Item) (columns : List (Column Rat)) : Prop where
  sense_eq : model.sense = .minimize
  vars : List.Forall₂ (fun added column => added.lower = some 0 ∧ added.upper = none ∧
    added.objective = column.cost ∧ added.isInteger = .flag false) model.vars columns
  rows : List.Forall₂ (fun row item => row.lower = some (item.demand : Rat) ∧ row.upper = none)
    model.rows items
  placed : model.Placed
  coefficient_eq : ∀ item place, model.coefficient item place =
    ((columns[place]?.map fun column => (column.counts.getD item 0 : Rat)).getD 0)

namespace Mirrors

variable {model : Model Rat} {items : List Item} {columns : List (Column Rat)} {point : List Rat}

/-- There is one variable for each column. -/
theorem length_vars (h : model.Mirrors items columns) : model.vars.length = columns.length :=
  h.vars.length_eq

/-- No variable has to be an integer. -/
theorem isContinuous (h : model.Mirrors items columns) : model.IsContinuous := by
  intro added hadded
  obtain ⟨place, hplace, rfl⟩ := List.getElem_of_mem hadded
  have hvariable := h.vars.get hplace (h.length_vars ▸ hplace)
  change model.vars[place].isInteger.truthy = false
  rw [show model.vars[place].isInteger = .flag false from hvariable.2.2.2]
  rfl

/-- The objective at a point is the expense of using the columns so. -/
theorem valueAt_eq (h : model.Mirrors items columns) (point : List Rat) :
    model.valueAt point = expenseOf columns point := by
  rw [valueAt, expenseOf]
  congr 1
  apply List.ext_getElem
  · simp [h.length_vars]
  · intro place hleft hright
    rw [List.length_zipWith] at hleft
    have hplace : place < model.vars.length := by omega
    have hpoint : place < point.length := by omega
    have hvariable := h.vars.get hplace (h.length_vars ▸ hplace)
    rw [List.getElem_zipWith, List.getElem_zipWith]
    exact congrArg (· * point[place]) hvariable.2.2.1

/-- The expression of a row at a point is what the columns yield of the item. -/
theorem rowAt_eq (h : model.Mirrors items columns) (hlength : point.length = columns.length)
    (item : Nat) : model.rowAt point item = yieldOf columns point item := by
  rw [rowAt, yieldOf]
  congr 1
  apply List.ext_getElem
  · simp [hlength]
  · intro place hleft hright
    have hplace : place < columns.length := by
      rw [List.length_mapIdx] at hleft
      omega
    simp [h.coefficient_eq, List.getElem?_eq_getElem hplace]

/-- Variables are between their bounds when the columns are not used a negative number of times. -/
theorem vars_iff (h : model.Mirrors items columns) :
    List.Forall₂ (fun added value => Window.Admits ⟨added.lower, added.upper, added.name⟩ value)
      model.vars point ↔ point.length = columns.length ∧ ∀ usage ∈ point, 0 ≤ usage := by
  have hbounds : ∀ (place : Nat) (hplace : place < model.vars.length) (value : Rat),
      Window.Admits ⟨model.vars[place].lower, model.vars[place].upper, model.vars[place].name⟩
        value ↔ 0 ≤ value := by
    intro place hplace value
    obtain ⟨hlower, hupper, -⟩ := h.vars.get hplace (h.length_vars ▸ hplace)
    change model.vars[place].lower = some 0 at hlower
    change model.vars[place].upper = none at hupper
    simp [Window.Admits, hlower, hupper]
  have hsame := h.length_vars
  rw [List.forall₂_iff_get]
  constructor
  · rintro ⟨hlength, hall⟩
    refine ⟨by omega, fun usage husage => ?_⟩
    obtain ⟨place, hplace, rfl⟩ := List.getElem_of_mem husage
    have hvars : place < model.vars.length := by omega
    exact (hbounds place hvars _).mp (hall place hvars hplace)
  · rintro ⟨hlength, hall⟩
    refine ⟨by omega, fun place hvars hplace => ?_⟩
    exact (hbounds place hvars _).mpr (hall _ (List.getElem_mem _))

/-- The feasible points are the usages of columns that meet the demands. -/
theorem isFeasible_iff (h : model.Mirrors items columns) :
    model.IsFeasible point ↔ MeetsDemands (items.map (·.demand)) columns point := by
  have hlength := h.rows.length_eq
  have hbounds : ∀ (place : Nat) (hrow : place < model.rows.length) (hitem : place < items.length)
      (value : Rat), Window.Admits ⟨model.rows[place].lower, model.rows[place].upper,
        model.rows[place].name⟩ value ↔ (items[place].demand : Rat) ≤ value := by
    intro place hrow hitem value
    obtain ⟨hlower, hupper⟩ := h.rows.get hrow hitem
    change model.rows[place].lower = some (items[place].demand : Rat) at hlower
    change model.rows[place].upper = none at hupper
    simp [Window.Admits, hlower, hupper]
  constructor
  · rintro ⟨hvars, hrows⟩
    obtain ⟨hpoint, hnonneg⟩ := h.vars_iff.mp hvars
    refine ⟨hpoint, hnonneg, fun item demand hdemand => ?_⟩
    rw [List.getElem?_map] at hdemand
    obtain ⟨known, hknown, rfl⟩ := Option.map_eq_some_iff.mp hdemand
    obtain ⟨hitem, rfl⟩ := List.getElem?_eq_some_iff.mp hknown
    have hrow : item < model.rows.length := by omega
    rw [← h.rowAt_eq hpoint]
    exact (hbounds item hrow hitem _).mp (hrows item _ (List.getElem?_eq_getElem hrow))
  · rintro ⟨hpoint, hnonneg, hmeets⟩
    refine ⟨h.vars_iff.mpr ⟨hpoint, hnonneg⟩, fun place row hrow => ?_⟩
    obtain ⟨hlt, rfl⟩ := List.getElem?_eq_some_iff.mp hrow
    have hitem : place < items.length := by omega
    rw [hbounds place hlt hitem, h.rowAt_eq hpoint]
    exact hmeets place _ (by simp [List.getElem?_eq_getElem hitem])

/-- The values that are attained are the expenses of meeting the demands. -/
theorem mem_attained_iff (h : model.Mirrors items columns) {value : Rat} :
    value ∈ model.attained ↔ ∃ usages, MeetsDemands (items.map (·.demand)) columns usages ∧
      expenseOf columns usages = value := by
  constructor
  · rintro ⟨point, hfeasible, rfl⟩
    exact ⟨point, h.isFeasible_iff.mp hfeasible, (h.valueAt_eq point).symm⟩
  · rintro ⟨usages, hmeets, rfl⟩
    exact ⟨usages, h.isFeasible_iff.mpr hmeets, h.valueAt_eq usages⟩

/-- The optimum is the least expense of meeting the demands. -/
theorem isOptimum_iff (h : model.Mirrors items columns) {value : Rat} :
    model.IsOptimum value ↔ IsLeastExpense (items.map (·.demand)) columns value := by
  have hset : model.attained = {total | ∃ usages,
      MeetsDemands (items.map (·.demand)) columns usages ∧ expenseOf columns usages = total} :=
    Set.ext fun _ => h.mem_attained_iff
  rw [IsOptimum, h.sense_eq, IsLeastExpense, hset]

/-- A model with one more variable and its coefficients is that of one more column. -/
theorem concat (h : model.Mirrors items columns) {extended : Model Rat} {column : Column Rat}
    {added : Variable Rat} (hsense : extended.sense = model.sense)
    (hvars : extended.vars = model.vars ++ [added]) (hrows : extended.rows = model.rows)
    (hplaced : extended.Placed)
    (hadded : added.lower = some 0 ∧ added.upper = none ∧ added.objective = column.cost ∧
      added.isInteger = .flag false)
    (hcoefficient : ∀ item place, extended.coefficient item place =
      model.coefficient item place +
        if place = columns.length then (column.counts.getD item 0 : Rat) else 0) :
    extended.Mirrors items (columns ++ [column]) where
  sense_eq := hsense.trans h.sense_eq
  vars := by
    rw [hvars]
    exact List.rel_append h.vars (List.Forall₂.cons hadded List.Forall₂.nil)
  rows := hrows ▸ h.rows
  placed := hplaced
  coefficient_eq := by
    intro item place
    rw [hcoefficient, h.coefficient_eq]
    rcases Nat.lt_trichotomy place columns.length with hlt | rfl | hgt
    · rw [if_neg (by omega), List.getElem?_append_left hlt, add_zero]
    · simp
    · rw [if_neg (by omega), List.getElem?_eq_none (by omega), List.getElem?_eq_none (by simp; omega)]
      simp

end Mirrors

end Model

variable {ε : Type} {engine : Engine ε Rat} {model : ε → Model Rat}

namespace Engine.Records

/-- The counts that pairs of a count and a row give for a row. -/
def countFor (pairs : List (Nat × Handle)) (row : Nat) : Nat :=
  (pairs.map fun pair => if pair.2.index = row then pair.1 else 0).sum

/-- The counts of a column and rows in order give each row the count at its place. -/
theorem countFor_zip {counts : List Nat} {rows : List Handle}
    (hrows : rows.map (·.index) = List.range rows.length) (hlength : counts.length = rows.length)
    (row : Nat) : countFor (counts.zip rows) row = counts.getD row 0 := by
  have hterms : (counts.zip rows).map (fun pair => if pair.2.index = row then pair.1 else 0) =
      (List.replicate counts.length 0).set row (counts.getD row 0) := by
    apply List.ext_getElem
    · simp [hlength]
    · intro place hleft hright
      have hplace : place < counts.length := by simpa using hright
      have hrow : place < rows.length := hlength ▸ hplace
      have hindex : rows[place].index = place := by
        simpa [hrow] using congrArg (·[place]?) hrows
      by_cases heq : place = row
      · subst heq
        simp [hindex, hplace, List.getD_eq_getElem?_getD]
      · simp [hindex, heq, Ne.symm heq]
  rw [countFor, hterms, List.sum_set]
  by_cases hrow : row < counts.length <;> simp [hrow, List.getD_eq_getElem?_getD]

/-- Coefficients that are written add up in the entries of their variable, and change nothing else of
the model. -/
theorem writeCounts (h : engine.Records model) {handle : Handle} {pairs : List (Nat × Handle)}
    {problem written : Problem ε}
    (hwrite : Cover.writeCounts engine handle pairs problem = (written, .ok ()))
    (hplaced : (model problem.engine).Placed) :
    (model written.engine).sense = (model problem.engine).sense ∧
      (model written.engine).vars = (model problem.engine).vars ∧
      (model written.engine).rows = (model problem.engine).rows ∧
      (model written.engine).Placed ∧ ∀ row column,
        (model written.engine).coefficient row column = (model problem.engine).coefficient row column +
          if column = handle.index then (countFor pairs row : Rat) else 0 := by
  induction pairs generalizing problem with
  | nil =>
    obtain ⟨rfl, -⟩ := Prod.mk.inj hwrite
    exact ⟨rfl, rfl, rfl, hplaced, fun row column => by simp [countFor]⟩
  | cons pair rest ih =>
    obtain ⟨count, row⟩ := pair
    rw [Cover.writeCounts] at hwrite
    split at hwrite
    · next hzero =>
      obtain ⟨hsense, hvars, hrows, hfinal, hcoefficient⟩ := ih hwrite hplaced
      refine ⟨hsense, hvars, hrows, hfinal, fun place column => ?_⟩
      rw [hcoefficient, hzero]
      simp [countFor]
    · rcases problem.addCoefficient_cases engine row handle (Quantity.ofInt count) with
        ⟨fault, hrefused⟩ | ⟨coefficient, state, fault | done, hreal, hasked, hanswered⟩
      · rw [hrefused] at hwrite
        cases hwrite
      · rw [hanswered] at hwrite
        cases hwrite
      · rw [hanswered] at hwrite
        have hmodel := h.addCoefficient _ _ _ _ _ hasked
        obtain rfl : ((count : Int) : Rat) = coefficient := Except.ok.inj hreal
        obtain ⟨hsense, hvars, hrows, hfinal, hcoefficient⟩ := ih hwrite
          (hmodel ▸ hplaced.addCoefficient row.index handle.index _)
        change (model written.engine).sense = (model state).sense at hsense
        change (model written.engine).vars = (model state).vars at hvars
        change (model written.engine).rows = (model state).rows at hrows
        change ∀ place column, (model written.engine).coefficient place column =
          (model state).coefficient place column + _ at hcoefficient
        rw [hmodel] at hsense hvars hrows
        refine ⟨hsense, hvars, hrows, hfinal, fun place column => ?_⟩
        rw [hcoefficient, hmodel, hplaced.coefficient_addCoefficient, add_assoc]
        congr 1
        by_cases hcolumn : column = handle.index
        · by_cases hrow : row.index = place <;> simp [countFor, hcolumn, hrow]
        · simp [hcolumn, Ne.symm hcolumn]

end Engine.Records

namespace Cover

/-- Whether the model that is recorded for a cover is that of its items and columns, with its rows
and its variables in order. -/
structure Mirrored (model : ε → Model Rat) (cover : Cover ε Rat) : Prop where
  index_rows : cover.rows.map (·.index) = List.range cover.rows.length
  length_rows : cover.rows.length = cover.items.length
  length_vars : cover.problem.vars.length = cover.pool.columns.length
  mirrors : (model cover.problem.engine).Mirrors cover.items cover.pool.columns

namespace Mirrored

variable {cover after : Cover ε Rat}

/-- Entries in the journal are not recorded. -/
theorem noted (h : cover.Mirrored model) (hnoted : cover.Noted after) : after.Mirrored model := by
  obtain ⟨journal, rfl⟩ := hnoted
  exact ⟨h.index_rows, h.length_rows, h.length_vars, h.mirrors⟩

/-- A column that is added is recorded. -/
theorem addColumn (h : cover.Mirrored model) (hrecords : engine.Records model)
    {column stored : Column Rat} {name : Datum}
    (hadd : cover.addColumn engine column name = (after, .ok stored)) : after.Mirrored model := by
  obtain ⟨title, extended, handle, written, pool, hcheck, hvariable, hwritten, hpool, hnoted⟩ :=
    of_addColumn hadd
  have hkeeps := keepsBooks_writeCounts engine handle (column.counts.zip cover.rows) extended
  rw [hwritten] at hkeeps
  obtain ⟨hhandle, state, hstate, rfl⟩ := Problem.of_addVariable hvariable
  have hindex : handle.index = cover.pool.columns.length := by rw [hhandle, ← h.length_vars]
  obtain ⟨⟨id, rfl⟩, hcolumns⟩ := ColumnPool.columns_of_add hpool
  have hmodel := hrecords.addVariable _ _ _ hstate
  have hplaced : (model state).Placed := hmodel ▸ h.mirrors.placed
  obtain ⟨hsense, hvars, hrows, hfinal, hcoefficient⟩ := hrecords.writeCounts hwritten hplaced
  suffices hgrown : Mirrored model
      { cover with problem := written, pool, handles := cover.handles ++ [handle] } from
    hgrown.noted hnoted
  refine ⟨h.index_rows, h.length_rows, ?_, ?_⟩
  · obtain ⟨_, _, _, rfl⟩ := hkeeps
    change (cover.problem.vars ++ [handle]).length = pool.columns.length
    rw [hcolumns, List.length_append, List.length_append, h.length_vars]
    rfl
  · change (model _).Mirrors cover.items pool.columns
    rw [hcolumns]
    have hlength : column.counts.length = cover.rows.length := by
      rw [h.length_rows]
      exact (of_checkColumn hcheck).1
    refine h.mirrors.concat (hsense.trans (by rw [hmodel]; rfl)) (hvars.trans (by rw [hmodel]; rfl))
      (hrows.trans (by rw [hmodel]; rfl)) hfinal ⟨rfl, rfl, rfl, rfl⟩ fun item place => ?_
    rw [hcoefficient, Engine.Records.countFor_zip h.index_rows hlength, hindex]
    change (model state).coefficient item place + _ = _
    rw [hmodel]
    rfl

/-- A relaxation that is solved to the optimum leaves the recorded model as it is. -/
theorem solveRelaxation (h : cover.Mirrored model) (hrecords : engine.Records model)
    {tolerance : Rat} {solution : CoverSolution Rat}
    (hsolve : cover.solveRelaxation engine tolerance = (after, .ok solution)) :
    after.Mirrored model := by
  obtain ⟨solved, hsolved, -, rfl⟩ := of_solveRelaxation hsolve
  have hmodel := hrecords.solve _ _ (Problem.of_solve hsolved)
  have hkeeps := cover.problem.keepsBooks_solve engine
  rw [hsolved] at hkeeps
  obtain ⟨state, status, journal, rfl⟩ := hkeeps
  refine ⟨h.index_rows, h.length_rows, h.length_vars, ?_⟩
  change (model state).Mirrors _ _
  rw [hmodel]
  exact h.mirrors

/-- Rows that are added are recorded one after the other. -/
theorem addRows (hrecords : engine.Records model) {first : Nat} {items done : List Item}
    {problem ruled : Problem ε} {rows all : List Handle}
    (h : Mirrored model { items := done, problem, rows })
    (hconstraints : problem.constraints.length = rows.length)
    (hadd : Cover.addRows engine first items problem rows = ((ruled, all), .ok ())) :
    Mirrored model { items := done ++ items, problem := ruled, rows := all } := by
  induction items generalizing first done problem rows with
  | nil =>
    obtain ⟨hsame, -⟩ := Prod.mk.inj hadd
    obtain ⟨rfl, rfl⟩ := Prod.mk.inj hsame
    rwa [List.append_nil]
  | cons item rest ih =>
    simp only [Cover.addRows, Quantity.real?_rat] at hadd
    split at hadd
    · cases hadd
    · next extended handle hadded =>
      obtain ⟨-, rfl, terms, state, hasked, hterms, rfl⟩ := Problem.of_addConstraint hadded
      have hmodel := hrecords.addRow _ _ _ _ hasked
      rw [hterms rfl] at hmodel
      rw [← List.singleton_append, ← List.append_assoc]
      refine ih ?_ ?_ hadd
      refine ⟨?_, ?_, h.length_vars, ?_⟩
      · change (rows ++ [_]).map _ = List.range (rows ++ [_]).length
        rw [List.map_append, h.index_rows, List.length_append, List.length_singleton,
          List.range_succ]
        simp [hconstraints]
      · simpa using h.length_rows
      · change (model state).Mirrors (done ++ [item]) []
        rw [hmodel]
        have hrow : (⟨.text s!"demand_{first}", some ((item.demand : Int) : Rat), none⟩ :
            Row Rat).lower = some (item.demand : Rat) := by simp
        exact ⟨h.mirrors.sense_eq, h.mirrors.vars,
          List.rel_append h.mirrors.rows (List.Forall₂.cons ⟨hrow, rfl⟩ List.Forall₂.nil),
          h.mirrors.placed, h.mirrors.coefficient_eq⟩
      · simp [hconstraints]

/-- A cover that is built in a new problem is recorded, with one column for each single item. -/
theorem of_build (hrecords : engine.Records model) {state : ε} {listener : Listener}
    {items : List Item} {name : Datum}
    (h : Cover.build engine { engine := state, listener } items name true = (cover, .ok ())) :
    cover.Mirrored model ∧ cover.items = items ∧ AreSingles items.length cover.pool.columns := by
  obtain ⟨created, ruled, rows, hcreated, hruled, hseed⟩ := Cover.of_build h
  obtain ⟨empty, hcreate, hnew⟩ := Problem.of_create hcreated
  have hmodel := hrecords.create _ _ _ hcreate
  have hbare : Mirrored model ({ items := [], problem := created } : Cover ε Rat) := by
    rw [hnew]
    refine ⟨rfl, rfl, rfl, ?_⟩
    change (model empty).Mirrors [] []
    rw [hmodel]
    exact ⟨rfl, .nil, .nil, fun entry hentry => absurd hentry List.not_mem_nil, fun _ _ => rfl⟩
  have hrows := hbare.addRows hrecords (by rw [hnew]; rfl) hruled
  rw [List.nil_append] at hrows
  have hseeded := of_seed (P := fun done cover => cover.Mirrored model ∧ cover.items = items ∧
      cover.pool.columns.map (·.counts) =
        done.map (fun item => (List.replicate items.length 0).set item 1) ∧
      ∀ column ∈ cover.pool.columns, column.cost = 1) ?_ []
    ⟨hrows, rfl, rfl, fun _ hcolumn => absurd hcolumn List.not_mem_nil⟩ hseed
  · obtain ⟨hmirrored, hitems, hcounts, hcosts⟩ := hseeded
    exact ⟨hmirrored, hitems, hcounts, hcosts⟩
  · rintro done item title cover grown stored ⟨hmirrored, hitems, hcounts, hcosts⟩ hadd
    obtain ⟨⟨id, rfl⟩, hcolumns⟩ := columns_of_addColumn hadd
    have hnumItems : cover.numItems = items.length := congrArg List.length hitems
    refine ⟨hmirrored.addColumn hrecords hadd, ?_, ?_, ?_⟩
    · rw [← hitems]
      exact items_of_addColumn hadd
    · rw [hcolumns, List.map_append, hcounts, List.map_append, List.map_singleton,
        List.map_singleton, hnumItems]
      rfl
    · rw [hcolumns]
      intro column hcolumn
      rcases List.mem_append.mp hcolumn with hknown | hlast
      · exact hcosts column hknown
      · rw [List.mem_singleton.mp hlast]
        rfl

end Mirrored

end Cover

end PatternCovering
