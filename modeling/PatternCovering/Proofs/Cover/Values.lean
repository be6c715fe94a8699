import PatternCovering.Proofs.Cover.Books
import PatternCovering.Proofs.Cover.Usages
import Mathlib.Algebra.Order.Group.Unbundled.Abs

/-!
# Values of columns

The value of a column in a solution is read by the handle of its variable, kept in a table under the
identifier of the column unless it is within a tolerance of zero, and found again by that identifier
when the columns in use are listed. As long as columns and handles are in step and identifiers are
distinct integers, nothing is lost or mixed up on the way: the columns in use are those whose values
are above the tolerance, each with its own value, also if further columns came after the solution.
-/

namespace PatternCovering

/-- A quantity without its sign, of rational numbers. -/
@[simp]
theorem Quantity.abs?_rat (q : Rat) : Quantity.abs? q = .ok |q| := by
  simp only [Quantity.abs?, Quantity.neg?_rat, Quantity.lt_rat, Quantity.zero_rat, bind, Except.bind,
    pure, Except.pure, decide_eq_true_eq]
  split
  · next hneg => rw [abs_of_neg hneg]
  · next hnonneg => rw [abs_of_nonneg (not_lt.mp hnonneg)]

/-- The value of a variable is that which the engine gives for it. -/
theorem Problem.of_primal {ε α : Type} {engine : Engine ε α} {problem : Problem ε} {handle : Handle}
    {value : α} (h : problem.primal engine handle.asVariable = .ok value) :
    engine.primal problem.engine (.int handle.index) = .ok value := by
  obtain ⟨index, hindex, h⟩ := bind_eq_ok.mp h
  obtain ⟨_, -, h⟩ := bind_eq_ok.mp h
  rwa [of_checkIndex hindex] at h

namespace Cover

variable {ε : Type} {engine : Engine ε Rat} {cover after : Cover ε Rat} {tolerance : Rat}

/-- Whether the columns of a cover have distinct integers as identifiers, and one handle each. -/
structure Listed (cover : Cover ε Rat) : Prop where
  numbered : cover.pool.Numbered
  length_handles : cover.handles.length = cover.pool.columns.length

/-- Entries in the journal change no lists. -/
theorem Listed.noted (h : cover.Listed) (hnoted : cover.Noted after) : after.Listed := by
  obtain ⟨_, rfl⟩ := hnoted
  exact ⟨h.numbered, h.length_handles⟩

/-- A solution of the relaxation changes no lists. -/
theorem Listed.solveRelaxation (h : cover.Listed) {solution : CoverSolution Rat}
    (hsolve : cover.solveRelaxation engine tolerance = (after, .ok solution)) : after.Listed := by
  obtain ⟨_, -, -, rfl⟩ := of_solveRelaxation hsolve
  exact ⟨h.numbered, h.length_handles⟩

/-- A column without an identifier gets a new one together with its handle. -/
theorem Listed.addColumn (h : cover.Listed) {column stored : Column Rat} {name : Datum}
    (hid : column.id = .null)
    (hadd : cover.addColumn engine column name = (after, .ok stored)) : after.Listed := by
  obtain ⟨_, _, _, _, pool, hcheck, -, -, hpool, hnoted⟩ := of_addColumn hadd
  obtain ⟨-, hnew, hfree, -⟩ := of_checkColumn hcheck
  obtain ⟨id, hidFor, hother⟩ := exists_idFor h.numbered (Or.inl hid) hfree
  have hstored : ({ column with id := cover.idFor column } : Column Rat).id = .int id := hidFor
  obtain ⟨nextId, -, hadded, hnumbered⟩ := h.numbered.add hstored hother (of_hasColumn hnew).1
  obtain ⟨rfl, -⟩ := Prod.mk.inj (hadded.symm.trans hpool)
  refine Listed.noted ⟨hnumbered, ?_⟩ hnoted
  simp [h.length_handles]

/-- A cover that is built has its columns listed. -/
theorem Listed.build {problem : Problem ε} {items : List Item} {name : Datum}
    (h : Cover.build engine problem items name true = (cover, .ok ())) : cover.Listed := by
  obtain ⟨_, _, _, -, -, hseed⟩ := of_build h
  refine of_seed (P := fun _ cover => cover.Listed) ?_ [] ?_ hseed
  · intro _ item name cover grown stored hlisted hadd
    exact hlisted.addColumn rfl hadd
  · exact ⟨⟨⟨0, rfl, List.forall_mem_nil _⟩, .nil⟩, rfl⟩

/-- The values of columns that are not within a tolerance of zero, by the identifiers of the
columns. -/
def keptValues (tolerance : Rat) (columns : List (Column Rat)) (values : List Rat) : Table Rat :=
  (columns.zip values).filterMap fun used =>
    if tolerance < |used.2| then some (used.1.id, used.2) else none

/-- The columns with values above a tolerance, each carrying its value. -/
def inUse (tolerance : Rat) (columns : List (Column Rat)) (values : List Rat) : List (Column Rat) :=
  (columns.zip values).filterMap fun used =>
    if tolerance < used.2 then some { used.1 with value := some used.2 } else none

/-- What is kept are the values that are not within the tolerance of zero. -/
theorem mem_keptValues {columns : List (Column Rat)} {values : List Rat} {entry : Datum × Rat} :
    entry ∈ keptValues tolerance columns values ↔
      ∃ used ∈ columns.zip values, tolerance < |used.2| ∧ (used.1.id, used.2) = entry := by
  simp [keptValues, List.mem_filterMap]

/-- The values that are read are those of the engine, and those that are not within the tolerance of
zero are kept. -/
theorem of_readValues {problem : Problem ε} {pairs : List (Column Rat × Handle)} {table : Table Rat}
    (h : readValues engine problem tolerance pairs = .ok table) :
    ∃ values, ((pairs.map (·.2)).mapM fun handle =>
        engine.primal problem.engine (.int handle.index)) = .ok values ∧
      table = keptValues tolerance (pairs.map (·.1)) values := by
  induction pairs generalizing table with
  | nil =>
    obtain rfl := Except.ok.inj h
    exact ⟨[], rfl, rfl⟩
  | cons pair rest ih =>
    obtain ⟨column, handle⟩ := pair
    rw [readValues] at h
    obtain ⟨value, hvalue, h⟩ := bind_eq_ok.mp h
    simp only [Quantity.abs?_rat, Quantity.lt?_rat, bind, Except.bind] at h
    obtain ⟨others, hothers, h⟩ := bind_eq_ok.mp h
    obtain ⟨values, hvalues, rfl⟩ := ih hothers
    refine ⟨value :: values, ?_, ?_⟩
    · simp only [List.map_cons, List.mapM_cons, Problem.of_primal hvalue, hvalues, bind, Except.bind]
      rfl
    · rw [← Except.ok.inj h]
      by_cases hkept : tolerance < |value|
      · simp [keptValues, hkept]
      · simp [keptValues, hkept]

/-- The columns that are used are those for which a value above the tolerance is found. -/
theorem usedColumns_rat (solution : CoverSolution Rat) (tolerance : Rat)
    (columns : List (Column Rat)) :
    usedColumns solution tolerance columns = .ok (columns.filterMap fun column =>
      if tolerance < solution.valueOf column.id then
        some { column with value := some (solution.valueOf column.id) }
      else none) := by
  induction columns with
  | nil => rfl
  | cons column rest ih =>
    simp only [usedColumns, Quantity.lt?_rat, ih, bind, Except.bind, pure, Except.pure,
      List.filterMap_cons, decide_eq_true_eq]
    by_cases hused : tolerance < solution.valueOf column.id
    · simp [hused]
    · simp [hused]

section Found

variable {pool : ColumnPool Rat} {columns more : List (Column Rat)} {values : List Rat}
  {solution : CoverSolution Rat} {column : Column Rat} {value : Rat}

/-- A value that is kept under the identifier of a column is the value of that column. -/
theorem of_mem_keptValues (hnumbered : pool.Numbered) (hcolumns : pool.columns = columns ++ more)
    (hlength : values.length = columns.length) (h : (column, value) ∈ columns.zip values)
    {entry : Datum × Rat} (hentry : entry ∈ keptValues tolerance columns values)
    (hsame : entry.1.same column.id = true) : entry.2 = value ∧ tolerance < |value| := by
  obtain ⟨used, hused, habove, rfl⟩ := mem_keptValues.mp hentry
  have hmem : ∀ used ∈ columns.zip values, used.1 ∈ pool.columns := fun used hused => by
    rw [hcolumns]
    exact List.mem_append_left _ (List.of_mem_zip hused).1
  have hnodup : ((columns.zip values).map fun used => used.1.id).Nodup := by
    have hall := hnumbered.nodup_id
    rw [hcolumns, List.map_append] at hall
    rw [← List.map_fst_zip hlength.ge, List.map_map] at hall
    exact (List.nodup_append.mp hall).1
  have hid := (hnumbered.same_iff (hmem _ hused) (hmem _ h)).mp hsame
  obtain rfl := List.inj_on_of_nodup_map hnodup hused h hid
  exact ⟨rfl, habove⟩

/-- The value that is found for a column is its own, or zero if that is within the tolerance of
zero. -/
theorem valueOf_mem (hnumbered : pool.Numbered) (hcolumns : pool.columns = columns ++ more)
    (hlength : values.length = columns.length)
    (hvalues : solution.values = keptValues tolerance columns values)
    (h : (column, value) ∈ columns.zip values) :
    solution.valueOf column.id = if tolerance < |value| then value else 0 := by
  have hunique : ∀ entry ∈ keptValues tolerance columns values, entry.1.same column.id = true →
      entry.2 = value ∧ tolerance < |value| := fun _ hentry hsame =>
    of_mem_keptValues hnumbered hcolumns hlength h hentry hsame
  rw [CoverSolution.valueOf, hvalues]
  split
  · next habove =>
    have hmem : column ∈ pool.columns := by
      rw [hcolumns]
      exact List.mem_append_left _ (List.of_mem_zip h).1
    have hkept : (column.id, value) ∈ keptValues tolerance columns values :=
      mem_keptValues.mpr ⟨_, h, habove, rfl⟩
    rw [Table.find?_eq_some ⟨_, hkept, (hnumbered.same_iff hmem hmem).mpr rfl⟩
      fun entry hentry hsame => (hunique entry hentry hsame).1]
    rfl
  · next hbelow =>
    rw [Table.find?_eq_none fun entry hentry => Bool.eq_false_iff.mpr fun hsame =>
      hbelow (hunique entry hentry hsame).2]
    rfl

/-- No value is found for a column that came after the solution. -/
theorem valueOf_more (hnumbered : pool.Numbered) (hcolumns : pool.columns = columns ++ more)
    (hvalues : solution.values = keptValues tolerance columns values) (h : column ∈ more) :
    solution.valueOf column.id = 0 := by
  have hnone : Table.find? column.id solution.values = none := by
    rw [hvalues]
    refine Table.find?_eq_none fun entry hentry => Bool.eq_false_iff.mpr fun hsame => ?_
    obtain ⟨used, hused, -, rfl⟩ := mem_keptValues.mp hentry
    have hknown := (List.of_mem_zip hused).1
    have hid := (hnumbered.same_iff (by simp [hcolumns, hknown]) (by simp [hcolumns, h])).mp hsame
    have hnodup := hnumbered.nodup_id
    rw [hcolumns, List.map_append] at hnodup
    exact (List.nodup_append.mp hnodup).2.2 _ (List.mem_map_of_mem hknown) _
      (List.mem_map_of_mem h) hid
  rw [CoverSolution.valueOf, hnone]
  rfl

/-- The columns that are used are those with a value above the tolerance, whatever columns came after
the solution. -/
theorem activeColumns_eq (h : cover.Listed) (hcolumns : cover.pool.columns = columns ++ more)
    (hlength : values.length = columns.length)
    (hvalues : solution.values = keptValues tolerance columns values) (htolerance : 0 ≤ tolerance) :
    cover.activeColumns solution tolerance = .ok (inUse tolerance columns values) := by
  have hmore : more.filterMap (fun column => if tolerance < solution.valueOf column.id then
      some { column with value := some (solution.valueOf column.id) } else none) = [] := by
    rw [List.filterMap_eq_nil_iff]
    intro column hcolumn
    rw [valueOf_more h.numbered hcolumns hvalues hcolumn, if_neg (not_lt.mpr htolerance)]
  have hzip : columns = (columns.zip values).map (·.1) := (List.map_fst_zip hlength.ge).symm
  rw [activeColumns, usedColumns_rat, hcolumns, List.filterMap_append, hmore, List.append_nil, inUse]
  nth_rewrite 1 [hzip]
  rw [List.filterMap_map]
  congr 1
  refine List.filterMap_congr fun used hused => ?_
  have hvalue := valueOf_mem h.numbered hcolumns hlength hvalues hused
  simp only [Function.comp_apply, hvalue]
  by_cases habove : tolerance < |used.2|
  · rw [if_pos habove]
  · have hzero : ¬ tolerance < 0 := not_lt.mpr htolerance
    have hbelow : ¬ tolerance < used.2 := fun hlt => habove (hlt.trans_le (le_abs_self _))
    rw [if_neg habove, if_neg hzero, if_neg hbelow]

end Found

/-- Whether an engine that solved the relaxation of a cover to the optimum gives values for its
columns. -/
def RelaxationValues (engine : Engine ε Rat) (cover : Cover ε Rat) (values : List Rat) : Prop :=
  ∃ state, engine.solve cover.problem.engine = (state, .ok .optimal) ∧
    (cover.handles.mapM fun handle => engine.primal state (.int handle.index)) = .ok values

/-- Whether an engine that solved the integer restriction of a cover to the optimum gives values for
its columns. -/
def RestrictionValues (engine : Engine ε Rat) (cover : Cover ε Rat) (values : List Rat) : Prop :=
  ∃ changed state, setIntegers engine true cover.handles cover.problem = (changed, .ok ()) ∧
    engine.solve changed.engine = (state, .ok .optimal) ∧
    (cover.handles.mapM fun handle => engine.primal state (.int handle.index)) = .ok values

namespace Listed

/-- The values that are collected are those of the columns, one for each. -/
theorem of_collect (h : cover.Listed) {isIntegerSolve : Bool} {solution : CoverSolution Rat}
    (hcollect : cover.collect engine tolerance isIntegerSolve = .ok solution) :
    ∃ values, (cover.handles.mapM fun handle =>
        engine.primal cover.problem.engine (.int handle.index)) = .ok values ∧
      values.length = cover.pool.columns.length ∧
      solution.values = keptValues tolerance cover.pool.columns values := by
  obtain ⟨objective, -, hcollect⟩ := bind_eq_ok.mp hcollect
  obtain ⟨table, htable, hcollect⟩ := bind_eq_ok.mp hcollect
  obtain ⟨values, hvalues, rfl⟩ := of_readValues htable
  obtain rfl := Except.ok.inj hcollect
  rw [List.map_snd_zip h.length_handles.le] at hvalues
  refine ⟨values, hvalues, (length_of_mapM_eq_ok hvalues).trans h.length_handles, ?_⟩
  rw [List.map_fst_zip h.length_handles.ge]

/-- The values in a solution of the relaxation are those of the columns known then. -/
theorem exists_relaxationValues (h : cover.Listed) {solution : CoverSolution Rat}
    (hsolve : cover.solveRelaxation engine tolerance = (after, .ok solution)) :
    ∃ values, cover.RelaxationValues engine values ∧
      values.length = cover.pool.columns.length ∧
      solution.values = keptValues tolerance cover.pool.columns values := by
  obtain ⟨solved, hsolved, hcollect, -⟩ := of_solveRelaxation hsolve
  obtain ⟨plain, hplain, hcollect⟩ := bind_eq_ok.mp hcollect
  obtain ⟨duals, -, hcollect⟩ := bind_eq_ok.mp hcollect
  obtain rfl := Except.ok.inj hcollect
  have hlisted : Listed { cover with problem := solved } := ⟨h.numbered, h.length_handles⟩
  obtain ⟨values, hvalues, hlength, hkept⟩ := hlisted.of_collect hplain
  exact ⟨values, ⟨solved.engine, Problem.of_solve hsolved, hvalues⟩, hlength, hkept⟩

/-- The values in a solution of the integer restriction are those of the columns. -/
theorem exists_restrictionValues (h : cover.Listed) {solution : CoverSolution Rat}
    (hsolve : cover.solveRestriction engine tolerance = (after, .ok solution)) :
    ∃ values, cover.RestrictionValues engine values ∧
      values.length = cover.pool.columns.length ∧
      solution.values = keptValues tolerance cover.pool.columns values := by
  obtain ⟨changed, solved, _, hchanged, hsolved, hcollect, -⟩ := of_solveRestriction hsolve
  have hlisted : Listed { cover with problem := solved } := ⟨h.numbered, h.length_handles⟩
  obtain ⟨values, hvalues, hlength, hkept⟩ := hlisted.of_collect hcollect
  exact ⟨values, ⟨changed, solved.engine, hchanged, Problem.of_solve hsolved, hvalues⟩, hlength,
    hkept⟩

end Listed

end Cover

end PatternCovering
