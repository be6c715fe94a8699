import PatternCovering.Proofs.Cover.Books
import PatternCovering.Proofs.Exact
import PatternCovering.Proofs.Generation.Run

/-!
# Covers over an engine that refuses nothing

An engine obliges if it takes every variable, every row and every coefficient at a row and a column
that it has, and gives the values of what it has solved to the optimum. Over exact arithmetic a cover
with such an engine can be built, it takes every new column, and its solutions can be read. Whether a
solve ends at an optimum is left open.
-/

namespace PatternCovering

variable {ε : Type}

/-- What is asked of an engine that refuses nothing, where `Has state rows columns` says that a state
has so many rows and columns. -/
structure Engine.Obliges (engine : Engine ε Rat) (Has : ε → Nat → Nat → Prop) : Prop where
  create : ∀ state sense, ∃ after, engine.create state sense = (after, .ok ()) ∧ Has after 0 0
  addVariable : ∀ {state rows columns} (added : Variable Rat), Has state rows columns →
    ∃ after, engine.addVariable state added = .ok after ∧ Has after rows (columns + 1)
  addRow : ∀ {state rows columns} (row : Row Rat), Has state rows columns →
    ∃ after, engine.addRow state row [] = (after, .ok ()) ∧ Has after (rows + 1) columns
  addCoefficient : ∀ {state rows columns} {row column : Nat} (amount : Rat),
    Has state rows columns → row < rows → column < columns →
      ∃ after, engine.addCoefficient state (.int row) (.int column) amount = (after, .ok ()) ∧
        Has after rows columns
  setInteger : ∀ {state rows columns} {column : Nat} (isInteger : Datum),
    Has state rows columns → column < columns →
      ∃ after, engine.setInteger state (.int column) isInteger = .ok after ∧ Has after rows columns
  solve : ∀ {state rows columns}, Has state rows columns →
    ∃ after status, engine.solve state = (after, .ok status) ∧ Has after rows columns ∧
      (status = .optimal → (∃ objective, engine.objective after = .ok objective) ∧
        ∀ column : Nat, column < columns → ∃ value, engine.primal after (.int column) = .ok value)

namespace Problem

variable {engine : Engine ε Rat} {Has : ε → Nat → Nat → Prop} {problem : Problem ε}

/-- Whether the engine of a problem has the rows and columns that are in the books, all rows being
modifiable. -/
structure Served (Has : ε → Nat → Nat → Prop) (problem : Problem ε) : Prop where
  created : problem.isCreated = true
  has : Has problem.engine problem.constraints.length problem.vars.length
  length_modifiable : problem.modifiable.length = problem.constraints.length
  truthy_modifiable : ∀ given ∈ problem.modifiable, given.truthy = true

/-- Whether the values of a problem can be read: its objective, its variables, and the duals that the
engine gives. -/
structure Readable (engine : Engine ε Rat) (problem : Problem ε) : Prop where
  objective : ∃ objective, problem.objective engine = .ok objective
  primal : ∀ handle : Handle, handle.index < problem.vars.length →
    ∃ value, problem.primal engine handle.asVariable = .ok value
  dual : ∀ (handle : Handle) (value : Rat), handle.index < problem.constraints.length →
    engine.dual problem.engine (.int handle.index) = .ok value →
      problem.dual engine handle.asConstraint = .ok value

/-- An index below the number of handles is accepted. -/
theorem checkIndex_eq_ok {count index : Nat} (h : index < count) (unknown : Fault) :
    checkIndex count (.int index) unknown = .ok (.int index) := by
  have hbelow : ¬ (index : Int) < 0 := by omega
  have hbeyond : ¬ (count : Int) ≤ index := by omega
  simp only [checkIndex, Datum.lt_int, Datum.le_int, bind, Except.bind, decide_eq_false hbelow,
    decide_eq_false hbeyond]
  rfl

/-- The entry of a list at a natural number. -/
theorem entry_eq_ok {β : Type} {entries : List β} {index : Nat} {entry : β}
    (h : entries[index]? = some entry) :
    Position.entry entries (Datum.int index) = .ok entry := by
  change entryAt entries (index : Int) = .ok entry
  simp [entryAt, entryAt?, h]

/-- A problem that is created is not refused. -/
theorem requireCreated_eq_ok (h : problem.isCreated = true) : problem.requireCreated = .ok () := by
  rw [requireCreated, if_pos h]

namespace Served

variable (hobliges : engine.Obliges Has) (h : problem.Served Has)

include h

/-- A row in range is modifiable. -/
theorem modifiable_of_lt {index : Nat} (hindex : index < problem.constraints.length) :
    ∃ given, problem.modifiable[index]? = some given ∧ given.truthy = true := by
  have hlt : index < problem.modifiable.length := by rwa [h.length_modifiable]
  exact ⟨problem.modifiable[index], List.getElem?_eq_getElem hlt,
    h.truthy_modifiable _ (List.getElem_mem hlt)⟩

include hobliges

/-- The variable of a column is taken. -/
theorem addVariable (column : Column Rat) (title : Datum) :
    ∃ extended handle, problem.addVariable engine (Cover.variableOf column title) =
      .ok (extended, handle) ∧ extended.Served Has := by
  obtain ⟨state, hstate, hhas⟩ := hobliges.addVariable (Cover.variableOf column title) h.has
  refine ⟨{ problem with
    engine := state
    vars := problem.vars ++ [⟨problem.vars.length, title⟩]
    status := .notSolved }, ⟨problem.vars.length, title⟩, ?_, ?_⟩
  · have hcrossed : crossed? (Cover.variableOf column title).lower
        (Cover.variableOf column title).upper = .ok none := rfl
    simp only [Problem.addVariable, requireCreated_eq_ok h.created, hcrossed, hstate, bind,
      Except.bind]
    rfl
  · exact {
      created := h.created
      has := by simpa using hhas
      length_modifiable := h.length_modifiable
      truthy_modifiable := h.truthy_modifiable }

/-- A row without terms is taken. -/
theorem addConstraint (name : Datum) (demand : Rat) :
    ∃ extended handle, problem.addConstraint engine ⟨name, some demand, none⟩ [] (.flag true) =
      (extended, .ok handle) ∧ extended.Served Has := by
  obtain ⟨state, hstate, hhas⟩ := hobliges.addRow ⟨name, some demand, none⟩ h.has
  refine ⟨{ problem with
    engine := state
    constraints := problem.constraints ++ [⟨problem.constraints.length, name⟩]
    modifiable := problem.modifiable ++ [.flag true]
    status := .notSolved }, ⟨problem.constraints.length, name⟩, ?_, ?_⟩
  · have hparts : problem.checkConstraintParts (⟨name, some demand, none⟩ : Row Rat) []
        (.flag true) = .ok [] := by
      simp only [checkConstraintParts, checkRow, requireCreated_eq_ok h.created, bind, Except.bind]
      rfl
    simp only [Problem.addConstraint, hparts, hstate]
  · exact {
      created := h.created
      has := by simpa using hhas
      length_modifiable := by simp [h.length_modifiable]
      truthy_modifiable := by
        intro given hgiven
        rcases List.mem_append.mp hgiven with hgiven | hgiven
        · exact h.truthy_modifiable given hgiven
        · rw [List.mem_singleton.mp hgiven]
          decide +kernel }

/-- A coefficient at a row and a column in range is taken. -/
theorem addCoefficient {row column : Handle} (hrow : row.index < problem.constraints.length)
    (hcolumn : column.index < problem.vars.length) (amount : Rat) :
    ∃ written, problem.addCoefficient engine row.asConstraint column.asVariable amount =
      (written, .ok ()) ∧ written.Served Has ∧ problem.KeepsBooks written := by
  obtain ⟨state, hstate, hhas⟩ := hobliges.addCoefficient amount h.has hrow hcolumn
  obtain ⟨given, hgiven, htruthy⟩ := h.modifiable_of_lt hrow
  have hchecked : problem.checkConstraint row.asConstraint = .ok (.int row.index) :=
    checkIndex_eq_ok hrow _
  have hentry : problem.checkEntry row.asConstraint column.asVariable =
      .ok (.int row.index, .int column.index) := by
    have hvariable : problem.checkVariable column.asVariable = .ok (.int column.index) :=
      checkIndex_eq_ok hcolumn _
    have hmodifiable : problem.modifiableAt row.asConstraint = .ok given := by
      rw [modifiableAt, hchecked]
      exact entry_eq_ok hgiven
    simp [checkEntry, hchecked, hvariable, hmodifiable, htruthy, bind, Except.bind, pure,
      Except.pure]
  refine ⟨{ problem with engine := state, status := .notSolved }, ?_, ?_, ⟨_, _, _, rfl⟩⟩
  · simp only [Problem.addCoefficient, hentry, Quantity.real?_rat, hstate]
  · exact { h with has := hhas }

/-- A variable in range is made integer or continuous. -/
theorem setInteger {column : Handle} (hcolumn : column.index < problem.vars.length)
    (isInteger : Datum) :
    ∃ changed, problem.setInteger engine column.asVariable isInteger = .ok changed ∧
      changed.Served Has ∧ problem.KeepsBooks changed := by
  obtain ⟨state, hstate, hhas⟩ := hobliges.setInteger isInteger h.has hcolumn
  have hvariable : problem.checkVariable column.asVariable = .ok (.int column.index) :=
    checkIndex_eq_ok hcolumn _
  refine ⟨{ problem with engine := state, status := .notSolved }, ?_, { h with has := hhas },
    ⟨_, _, _, rfl⟩⟩
  simp only [Problem.setInteger, hvariable, hstate, bind, Except.bind]
  rfl

/-- A solve gives a status, and the values of an optimal one can be read. -/
theorem solve :
    ∃ solved status, problem.solve engine = (solved, .ok status) ∧ solved.Served Has ∧
      problem.KeepsBooks solved ∧ engine.solve problem.engine = (solved.engine, .ok status) ∧
      (status = .optimal → solved.Readable engine) := by
  obtain ⟨state, status, hstate, hhas, hread⟩ := hobliges.solve h.has
  refine ⟨{ problem with engine := state, status }.record (.problemSolved problem.name status),
    status, ?_, { h with has := hhas }, ⟨_, _, _, rfl⟩, hstate, ?_⟩
  · simp only [Problem.solve, requireCreated_eq_ok h.created, hstate]
  · rintro rfl
    obtain ⟨hobjective, hprimal⟩ := hread rfl
    refine ⟨hobjective, fun handle hhandle => ?_, fun handle value hhandle hvalue => ?_⟩
    · obtain ⟨value, hvalue⟩ := hprimal handle.index hhandle
      refine ⟨value, ?_⟩
      simp only [Problem.primal, checkVariable, Handle.asVariable, checkIndex_eq_ok hhandle]
      exact hvalue
    · simp only [Problem.dual, checkConstraint, Handle.asConstraint, checkIndex_eq_ok hhandle]
      exact hvalue

/-- The counts of a column are written. -/
theorem writeCounts {handle : Handle} (hhandle : handle.index < problem.vars.length)
    {pairs : List (Nat × Handle)}
    (hrows : ∀ pair ∈ pairs, pair.2.index < problem.constraints.length) :
    ∃ written, Cover.writeCounts engine handle pairs problem = (written, .ok ()) ∧
      written.Served Has := by
  induction pairs generalizing problem with
  | nil => exact ⟨problem, rfl, h⟩
  | cons pair rest ih =>
    obtain ⟨count, row⟩ := pair
    obtain ⟨hrow, hrest⟩ := List.forall_mem_cons.mp hrows
    rw [Cover.writeCounts]
    split
    · exact ih h hhandle hrest
    · obtain ⟨written, hwritten, hserved, _, _, _, rfl⟩ :=
        h.addCoefficient hobliges hrow hhandle (Quantity.ofInt count)
      rw [hwritten]
      exact ih hserved hhandle hrest

/-- Rows are taken one after the other. -/
theorem addRows (first : Nat) (items : List Item) (rows : List Handle) :
    ∃ ruled all, Cover.addRows engine first items problem rows = ((ruled, all), .ok ()) ∧
      ruled.Served Has := by
  induction items generalizing problem first rows with
  | nil => exact ⟨problem, rows, rfl, h⟩
  | cons item rest ih =>
    obtain ⟨extended, handle, hadded, hserved⟩ :=
      h.addConstraint hobliges (.text s!"demand_{first}") (Quantity.ofInt item.demand)
    obtain ⟨ruled, all, hrest, hruled⟩ := ih hserved (first + 1) (rows ++ [handle])
    refine ⟨ruled, all, ?_, hruled⟩
    simp only [Cover.addRows, Quantity.real?_rat, hadded]
    exact hrest

/-- Variables in range are made integer or continuous one after the other. -/
theorem setIntegers (isInteger : Bool) {handles : List Handle}
    (hhandles : ∀ handle ∈ handles, handle.index < problem.vars.length) :
    ∃ changed, Cover.setIntegers engine isInteger handles problem = (changed, .ok ()) ∧
      changed.Served Has ∧ problem.KeepsBooks changed := by
  induction handles generalizing problem with
  | nil => exact ⟨problem, rfl, h, .refl problem⟩
  | cons handle rest ih =>
    obtain ⟨hhandle, hrest⟩ := List.forall_mem_cons.mp hhandles
    obtain ⟨changed, hchanged, hserved, hkeeps⟩ :=
      h.setInteger hobliges hhandle (.flag isInteger)
    have hvars : changed.vars = problem.vars := by
      obtain ⟨_, _, _, rfl⟩ := hkeeps
      rfl
    obtain ⟨last, hlast, hfinal, hmore⟩ := ih hserved (by rwa [hvars])
    refine ⟨last, ?_, hfinal, hkeeps.trans hmore⟩
    rw [Cover.setIntegers, hchanged]
    exact hlast

end Served

end Problem

namespace Cover

variable {engine : Engine ε Rat} {Has : ε → Nat → Nat → Prop} {cover : Cover ε Rat}
  {column : Column Rat}

/-- Whether a cover has its books in order, over an engine that has all of its rows and columns. -/
structure Served (Has : ε → Nat → Nat → Prop) (cover : Cover ε Rat) : Prop where
  books : cover.Books
  problem : cover.problem.Served Has

/-- A problem that keeps the books and is served serves the cover. -/
theorem Served.of_keepsBooks (h : cover.Served Has) {problem : Problem ε}
    (hkeeps : cover.problem.KeepsBooks problem) (hserved : problem.Served Has) :
    Served Has { cover with problem } :=
  ⟨h.books.of_keepsBooks hkeeps, hserved⟩

/-- Entries in the journal leave a cover served. -/
theorem Served.noted (h : cover.Served Has) {after : Cover ε Rat}
    (hnoted : cover.Noted after) : after.Served Has := by
  obtain ⟨journal, rfl⟩ := hnoted
  exact h.of_keepsBooks ⟨_, _, journal, rfl⟩ { h.problem with }

/-- A number names a variable if it is not too long to be written. -/
theorem variableName_cases (number : Nat) :
    (∃ title, variableName (.int number) .null = .ok title) ∨
      10 ^ Decimal.mostIntegerDigits ≤ number ∧
        variableName (.int number) .null = .error .integerTooLong := by
  have hlong : (Datum.int number).isTooLong =
      decide (10 ^ Decimal.mostIntegerDigits ≤ number) := by
    change decide (Decimal.mostIntegerDigits < (Nat.toDigits 10 number).length) = _
    have hdigits := Nat.length_toDigits_le_iff (n := number) (b := 10)
      (k := Decimal.mostIntegerDigits) (by decide) (by decide)
    rw [decide_eq_decide, ← Nat.not_le, hdigits, Nat.not_lt]
  have hnull : Datum.truthy .null = false := rfl
  by_cases hle : 10 ^ Decimal.mostIntegerDigits ≤ number
  · refine Or.inr ⟨hle, ?_⟩
    simp only [variableName, hnull, Datum.written, hlong, decide_eq_true hle]
    rfl
  · refine Or.inl ⟨.text ("pat_" ++ (Datum.int number).plain), ?_⟩
    simp only [variableName, hnull, Datum.written, hlong, decide_eq_false hle]
    rfl

/-- The values of columns can be read in a problem that is solved. -/
theorem exists_readValues {solved : Problem ε} (tolerance : Rat)
    {pairs : List (Column Rat × Handle)}
    (hread : ∀ pair ∈ pairs, ∃ value, solved.primal engine pair.2.asVariable = .ok value) :
    ∃ values, Cover.readValues engine solved tolerance pairs = .ok values := by
  induction pairs with
  | nil => exact ⟨[], rfl⟩
  | cons pair rest ih =>
    obtain ⟨column, handle⟩ := pair
    obtain ⟨⟨value, hvalue⟩, hrest⟩ := List.forall_mem_cons.mp hread
    obtain ⟨values, hvalues⟩ := ih hrest
    simp only [Cover.readValues, hvalue, hvalues, Quantity.abs?, Quantity.neg?_rat,
      Quantity.lt?_rat, bind, Except.bind, pure, Except.pure]
    exact ⟨_, rfl⟩

namespace Served

variable (hobliges : engine.Obliges Has) (h : cover.Served Has)

include h

/-- The rows of a cover are in range. -/
theorem index_lt {row : Handle} (hrow : row ∈ cover.rows) :
    row.index < cover.problem.constraints.length := by
  have hmem : row.index ∈ cover.rows.map (·.index) := List.mem_map_of_mem hrow
  rw [h.books.index_rows, List.mem_range] at hmem
  rwa [h.books.length_constraints]

/-- The rows of a cover are modifiable. -/
theorem isModifiable {row : Handle} (hrow : row ∈ cover.rows) : cover.isModifiable row = true := by
  obtain ⟨given, hgiven, htruthy⟩ := h.problem.modifiable_of_lt (h.index_lt hrow)
  rw [Cover.isModifiable, hgiven]
  exact htruthy

/-- A column without an identifier that is as long as there are items and differs from the columns of
the pool is accepted. -/
theorem checkColumn_eq_ok (hid : column.id = .null) (hlength : column.counts.length = cover.numItems)
    (hnew : ∀ known ∈ cover.pool.columns, known.same column = false) :
    cover.checkColumn column = .ok () := by
  have hknown : cover.hasColumn column = .ok false := by
    have hany : cover.pool.columns.any (·.same column) = false :=
      List.any_eq_false.mpr fun known hmem => Bool.eq_false_iff.mp (hnew known hmem)
    change Except.ok (cover.pool.columns.any (·.same column)) = _
    rw [hany]
  have hfree : cover.checkId column.id = .ok () := by
    rw [hid]
    rfl
  have hrow : cover.fixedRow? column = none := by
    rw [fixedRow?, Option.map_eq_none_iff, List.find?_eq_none]
    intro pair hpair
    simp [h.isModifiable (List.of_mem_zip hpair).2]
  have hsize : ¬ column.numItems ≠ cover.numItems := not_not.mpr hlength
  simp only [checkColumn, if_neg hsize, hknown, hfree, hrow, bind, Except.bind]
  rfl

/-- The solution that the engine holds can be collected. -/
theorem exists_collect (hread : cover.problem.Readable engine) (tolerance : Rat)
    (isIntegerSolve : Bool) :
    ∃ solution, cover.collect engine tolerance isIntegerSolve = .ok solution := by
  obtain ⟨objective, hobjective⟩ := hread.objective
  have hhandles : ∀ pair ∈ cover.pool.columns.zip cover.handles,
      ∃ value, cover.problem.primal engine pair.2.asVariable = .ok value := fun pair hpair =>
    hread.primal pair.2 (h.books.handle_lt _ (List.of_mem_zip hpair).2)
  obtain ⟨values, hvalues⟩ := exists_readValues tolerance hhandles
  simp only [collect, hobjective, hvalues, bind, Except.bind]
  exact ⟨_, rfl⟩

include hobliges

/-- A column that is accepted is added, if its variable can be named. -/
theorem addColumn (hid : column.HasIntegerId) (hcheck : cover.checkColumn column = .ok ())
    {name title : Datum} (htitle : variableName (cover.idFor column) name = .ok title) :
    ∃ problem nextId handle,
      ColumnPool.idAfter cover.pool.nextId (cover.idFor column) = .ok nextId ∧
      cover.addColumn engine column name =
        (cover.grown problem { column with id := cover.idFor column } nextId handle,
          .ok { column with id := cover.idFor column }) ∧
      (cover.grown problem { column with id := cover.idFor column } nextId handle).Served Has := by
  obtain ⟨extended, handle, hadd, hextended⟩ := h.problem.addVariable hobliges column title
  obtain ⟨hhandle, state, -, hsame⟩ := Problem.of_addVariable hadd
  have hrows : ∀ pair ∈ column.counts.zip cover.rows, pair.2.index < extended.constraints.length :=
    fun pair hpair => by
      rw [hsame]
      exact h.index_lt (List.of_mem_zip hpair).2
  have hlast : handle.index < extended.vars.length := by
    rw [hsame, hhandle]
    simp
  -- the books see only the new variable: writing its counts leaves them as they are
  obtain ⟨written, hwritten, hserved⟩ := hextended.writeCounts hobliges hlast hrows
  have hkeeps := keepsBooks_writeCounts engine handle (column.counts.zip cover.rows) extended
  rw [hwritten] at hkeeps
  have hmore : Problem.KeepsBooks { cover.problem with vars := cover.problem.vars ++ [handle] }
      extended := ⟨state, .notSolved, cover.problem.journal, hsame⟩
  obtain ⟨nextId, hnext, hstore, hbooks⟩ := h.books.exists_store hid hcheck (by rw [hhandle])
    (hmore.trans hkeeps)
  refine ⟨written, nextId, handle, hnext, ?_, hbooks, { hserved with }⟩
  simp only [Cover.addColumn, hcheck, htitle, bind, Except.bind, hadd, hwritten]
  exact hstore

/-- The relaxation is solved, with the duals that the engine reports for an optimal solve. -/
theorem solveRelaxation {objective : Option Rat} {duals : List Rat}
    (hreports : cover.Reports engine objective duals) (tolerance : Rat) :
    ∃ after solution, cover.solveRelaxation engine tolerance = (after, .ok solution) ∧
      solution.duals = duals ∧ after.Served Has ∧ after.pool = cover.pool ∧
      after.items = cover.items := by
  obtain ⟨state, hoptimal, -, hduals⟩ := hreports
  obtain ⟨solved, status, hsolve, hserved, hkeeps, hasked, hread⟩ := h.problem.solve hobliges
  obtain ⟨rfl, hstatus⟩ := Prod.mk.inj (hoptimal.symm.trans hasked)
  obtain rfl := Except.ok.inj hstatus
  have hsolved := h.of_keepsBooks hkeeps hserved
  obtain ⟨solution, hcollect⟩ := hsolved.exists_collect (hread rfl) tolerance false
  have hrows : cover.rows.mapM (fun row => solved.dual engine row.asConstraint) = .ok duals :=
    mapM_eq_ok_of_imp (fun row hrow value hvalue =>
      (hread rfl).dual row value (hsolved.index_lt hrow) hvalue) hduals
  refine ⟨{ cover with problem := solved, last := some { solution with duals } },
    { solution with duals }, ?_, rfl, ⟨{ hsolved.books with }, hserved⟩, rfl, rfl⟩
  simp only [Cover.solveRelaxation, hsolve, if_true, collectRelaxed, hcollect, hrows, bind,
    Except.bind]
  rfl

/-- The integer restriction is solved, or its solve did not end at an optimum. -/
theorem solveRestriction (tolerance : Rat) :
    (∃ after solution, cover.solveRestriction engine tolerance = (after, .ok solution) ∧
      after.Served Has) ∨
    ∃ after status, status ≠ Status.optimal ∧
      cover.solveRestriction engine tolerance = (after, .error (.restrictionFailed status)) := by
  obtain ⟨changed, hset, hchanged, hkeeps⟩ :=
    h.problem.setIntegers hobliges true h.books.handle_lt
  have hinteger := h.of_keepsBooks hkeeps hchanged
  obtain ⟨solved, status, hsolve, hserved, hkeeps, -, hread⟩ := hchanged.solve hobliges
  have hsolved := hinteger.of_keepsBooks hkeeps hserved
  obtain ⟨restored, hreset, hrestored, hkeeps⟩ :=
    hserved.setIntegers hobliges false hsolved.books.handle_lt
  have hfinal := hsolved.of_keepsBooks hkeeps hrestored
  by_cases hstatus : status = .optimal
  · obtain ⟨solution, hcollect⟩ := hsolved.exists_collect (hread hstatus) tolerance true
    refine Or.inl ⟨{ cover with problem := restored }, solution, ?_, hfinal⟩
    simp only [Cover.solveRestriction, hset, hsolve, hreset, hstatus, if_true, bind, Except.bind,
      hcollect]
  · refine Or.inr ⟨{ cover with problem := restored }, status, hstatus, ?_⟩
    simp only [Cover.solveRestriction, hset, hsolve, hreset, hstatus, if_false, bind, Except.bind]

end Served

/-- The rows of a cover are built in a new problem that is given a name. -/
theorem exists_rows (hobliges : engine.Obliges Has) (state : ε) {listener : Listener}
    (hears : ∀ event, listener event = .ok ()) {items : List Item} (hitems : items ≠ [])
    {name : Datum} (hname : name ≠ .null) :
    ∃ created ruled rows,
      Problem.create engine { engine := state, listener } name .minimize = (created, .ok ()) ∧
      addRows engine 0 items created [] = ((ruled, rows), .ok ()) ∧
      Served Has { items, problem := ruled, rows } := by
  obtain ⟨first, hfirst, hhas⟩ := hobliges.create state .minimize
  have hcreated : Problem.create engine { engine := state, listener } name .minimize =
      (({ engine := first, name, sense := .minimize, listener } : Problem ε).record
        (.problemCreated name .minimize), .ok ()) := by
    simp only [Problem.create, Problem.isCreated, hfirst]
    rfl
  have hnamed : (({ engine := first, name, sense := .minimize, listener } : Problem ε).record
      (.problemCreated name .minimize)).Served Has := by
    refine ⟨?_, hhas, rfl, fun _ hgiven => absurd hgiven List.not_mem_nil⟩
    simp only [Problem.record, Problem.isCreated]
  obtain ⟨ruled, rows, hrows, hserved⟩ := hnamed.addRows hobliges 0 items []
  exact ⟨_, ruled, rows, hcreated, hrows, Books.of_addRows hears hitems hcreated hrows, hserved⟩

end Cover

end PatternCovering
