import PatternCovering.Cover
import PatternCovering.Proofs.Failure

/-!
# What the operations of a cover change

A cover hands out a variable for each column, and most of what it does afterwards goes on inside the
engine: writing coefficients, solving and telling of events leave the books of the problem as they
are. Adding a column either leaves the pool and the handles alone or extends both by one entry. For
each operation one lemma says all that it can do; what a run keeps is read off these.
-/

namespace PatternCovering

variable {ε α : Type}

namespace Problem

/-- Whether a problem is another one with a further state of the engine, another status and another
journal. -/
def KeepsBooks (before after : Problem ε) : Prop :=
  ∃ engine status journal, after = { before with engine, status, journal }

/-- A problem keeps its own books. -/
theorem KeepsBooks.refl (problem : Problem ε) : problem.KeepsBooks problem := ⟨_, _, _, rfl⟩

/-- Books that are kept twice are kept. -/
theorem KeepsBooks.trans {first middle last : Problem ε} (h : first.KeepsBooks middle)
    (hlast : middle.KeepsBooks last) : first.KeepsBooks last := by
  obtain ⟨_, _, _, rfl⟩ := h
  obtain ⟨engine, status, journal, rfl⟩ := hlast
  exact ⟨engine, status, journal, rfl⟩

/-- Telling of an event changes nothing but the journal. -/
theorem exists_tell (problem : Problem ε) (event : Event) :
    ∃ journal, (problem.tell event).1 = { problem with journal } := by
  rw [tell]
  split
  · exact ⟨_, rfl⟩
  · exact ⟨_, rfl⟩

/-- An index that is accepted is the one that was given. -/
theorem of_checkIndex {count : Nat} {index checked : Datum} {unknown : Fault}
    (h : checkIndex count index unknown = .ok checked) : checked = index := by
  obtain ⟨below, -, h⟩ := bind_eq_ok.mp h
  cases below with
  | true => cases h
  | false =>
    obtain ⟨beyond, -, h⟩ := bind_eq_ok.mp h
    cases beyond with
    | true => cases h
    | false => exact (Except.ok.inj h).symm

/-- An entry that is accepted stands at the row and the column whose handles were given. -/
theorem of_checkEntry {problem : Problem ε} {row column : Handle} {place : Datum × Datum}
    (h : problem.checkEntry row.asConstraint column.asVariable = .ok place) :
    place = (.int row.index, .int column.index) := by
  obtain ⟨rowIndex, hrow, h⟩ := bind_eq_ok.mp h
  obtain ⟨columnIndex, hcolumn, h⟩ := bind_eq_ok.mp h
  obtain ⟨modifiable, -, h⟩ := bind_eq_ok.mp h
  split at h
  · rw [← Except.ok.inj h, of_checkIndex hrow, of_checkIndex hcolumn]
  · cases h

/-- A problem that is not refused was created. -/
theorem isCreated_of_requireCreated {problem : Problem ε} (h : problem.requireCreated = .ok ()) :
    problem.isCreated = true := by
  rw [requireCreated] at h
  split at h
  · next hcreated => exact hcreated
  · cases h

/-- A problem that is created has the name and the sense that were given. -/
theorem of_create {engine : Engine ε α} {problem created : Problem ε} {name : Datum} {sense : Sense}
    (h : problem.create engine name sense = (created, .ok ())) :
    ∃ state, engine.create problem.engine sense = (state, .ok ()) ∧ created =
      { problem with engine := state, name, sense }.record (.problemCreated name sense) := by
  rw [create] at h
  split at h
  · cases h
  · split at h
    · cases h
    · next state hstate => exact ⟨state, hstate, (Prod.mk.inj h).1.symm⟩

/-- Solving a problem that was created asks the engine. -/
theorem solve_cases (engine : Engine ε α) (problem : Problem ε) :
    (problem.isCreated = false ∧ problem.solve engine = (problem, .error .problemMissing)) ∨
    (∃ state fault, engine.solve problem.engine = (state, .error fault) ∧
      problem.solve engine = ({ problem with engine := state }, .error fault)) ∨
    ∃ state status, engine.solve problem.engine = (state, .ok status) ∧
      problem.solve engine =
        ({ problem with engine := state, status }.record (.problemSolved problem.name status),
          .ok status) := by
  simp only [solve, requireCreated]
  rcases hcreated : problem.isCreated with - | -
  · exact Or.inl ⟨rfl, rfl⟩
  · rcases hsolve : engine.solve problem.engine with ⟨state, fault | status⟩
    · exact Or.inr (Or.inl ⟨state, fault, rfl, rfl⟩)
    · exact Or.inr (Or.inr ⟨state, status, rfl, rfl⟩)

/-- A status comes from the engine, whose state is kept. -/
theorem of_solve {engine : Engine ε α} {problem solved : Problem ε} {status : Status}
    (h : problem.solve engine = (solved, .ok status)) :
    engine.solve problem.engine = (solved.engine, .ok status) := by
  rcases problem.solve_cases engine with
    ⟨-, hmissing⟩ | ⟨state, fault, -, hfailed⟩ | ⟨state, found, hasked, hsolved⟩
  · rw [hmissing] at h
    cases h
  · rw [hfailed] at h
    cases h
  · rw [hsolved] at h
    obtain ⟨rfl, hstatus⟩ := Prod.mk.inj h
    obtain rfl := Except.ok.inj hstatus
    exact hasked

/-- Solving keeps the books. -/
theorem keepsBooks_solve (engine : Engine ε α) (problem : Problem ε) :
    problem.KeepsBooks (problem.solve engine).1 := by
  rcases problem.solve_cases engine with
    ⟨-, h⟩ | ⟨state, fault, -, h⟩ | ⟨state, status, -, h⟩ <;> rw [h]
  · exact .refl problem
  · exact ⟨_, _, _, rfl⟩
  · exact ⟨_, _, _, rfl⟩

variable [Quantity α] {engine : Engine ε α} {problem : Problem ε}

/-- A variable that is added gets the next handle, and the engine has taken it. -/
theorem of_addVariable {extended : Problem ε} {added : Variable α} {handle : Handle}
    (h : problem.addVariable engine added = .ok (extended, handle)) :
    handle = ⟨problem.vars.length, added.name⟩ ∧ ∃ state,
      engine.addVariable problem.engine added = .ok state ∧
      extended = { problem with
        engine := state, vars := problem.vars ++ [handle], status := .notSolved } := by
  obtain ⟨_, -, h⟩ := bind_eq_ok.mp h
  obtain ⟨crossed, -, h⟩ := bind_eq_ok.mp h
  cases crossed with
  | some bounds => cases h
  | none =>
    obtain ⟨state, hstate, h⟩ := bind_eq_ok.mp h
    obtain ⟨rfl, rfl⟩ := Prod.mk.inj (Except.ok.inj h)
    exact ⟨rfl, state, hstate, rfl⟩

/-- A constraint that is added gets the next handle. -/
theorem of_addConstraint {extended : Problem ε} {row : Row α} {terms : List (Reference × α)}
    {modifiable : Datum} {handle : Handle}
    (h : problem.addConstraint engine row terms modifiable = (extended, .ok handle)) :
    problem.isCreated = true ∧ handle = ⟨problem.constraints.length, row.name⟩ ∧
      ∃ checked state, engine.addRow problem.engine row checked = (state, .ok ()) ∧
        (terms = [] → checked = []) ∧
        extended = { problem with
          engine := state
          constraints := problem.constraints ++ [handle]
          modifiable := problem.modifiable ++ [modifiable]
          status := .notSolved } := by
  simp only [addConstraint] at h
  split at h
  · cases h
  · next checked hchecked =>
    split at h
    · cases h
    · next state hadded =>
      obtain ⟨rfl, hhandle⟩ := Prod.mk.inj h
      obtain rfl := Except.ok.inj hhandle
      obtain ⟨_, hrow, hterms⟩ := bind_eq_ok.mp hchecked
      obtain ⟨_, hcreated, -⟩ := bind_eq_ok.mp hrow
      refine ⟨?_, rfl, checked, state, hadded, ?_, rfl⟩
      · exact isCreated_of_requireCreated hcreated
      · rintro rfl
        exact (Except.ok.inj hterms).symm

/-- Adding a coefficient is refused before the engine is asked, or it is what the engine makes of
it. -/
theorem addCoefficient_cases (engine : Engine ε α) (problem : Problem ε) (row column : Handle)
    (amount : α) :
    (∃ fault, problem.addCoefficient engine row.asConstraint column.asVariable amount =
      (problem, .error fault)) ∨
    ∃ coefficient state outcome, Quantity.real? amount = .ok coefficient ∧
      engine.addCoefficient problem.engine (.int row.index) (.int column.index) coefficient =
        (state, outcome) ∧
      problem.addCoefficient engine row.asConstraint column.asVariable amount =
        ({ problem with
           engine := state
           status := if outcome.isOk then .notSolved else problem.status }, outcome) := by
  simp only [addCoefficient]
  rcases hentry : problem.checkEntry row.asConstraint column.asVariable with fault | place
  · exact Or.inl ⟨fault, rfl⟩
  · rw [of_checkEntry hentry]
    rcases hreal : Quantity.real? amount with fault | coefficient
    · exact Or.inl ⟨fault, rfl⟩
    · rcases hasked : engine.addCoefficient problem.engine (.int row.index) (.int column.index)
        coefficient with ⟨state, fault | done⟩
      · exact Or.inr ⟨coefficient, state, .error fault, rfl, hasked, by simp only [hasked]; rfl⟩
      · exact Or.inr ⟨coefficient, state, .ok (), rfl, hasked, by simp only [hasked]; rfl⟩

end Problem

namespace ColumnPool

variable [Quantity α] {pool grown : ColumnPool α} {column stored : Column α}

/-- A column that is put at the end of a pool stands there. -/
theorem columns_of_append (h : pool.append column = (grown, .ok stored)) :
    stored = column ∧ grown.columns = pool.columns ++ [stored] := by
  simp only [append] at h
  split at h
  · cases h
  · obtain ⟨rfl, hstored⟩ := Prod.mk.inj h
    obtain ⟨_, -, rfl⟩ := map_eq_ok.mp hstored
    exact ⟨rfl, rfl⟩

/-- A column that a pool takes stands at its end, under the identifier it has there. -/
theorem columns_of_add (h : pool.add column = (grown, .ok stored)) :
    (∃ id, stored = { column with id }) ∧ grown.columns = pool.columns ++ [stored] := by
  simp only [add] at h
  split at h
  · obtain ⟨rfl, hcolumns⟩ := columns_of_append h
    exact ⟨⟨_, rfl⟩, hcolumns⟩
  · split at h
    · cases h
    · cases h
    · obtain ⟨rfl, hcolumns⟩ := columns_of_append h
      exact ⟨⟨_, rfl⟩, hcolumns⟩

/-- However adding a column ends, a pool is as it was or has the column at its end. -/
theorem columns_add (pool : ColumnPool α) (column : Column α) :
    (pool.add column).1.columns = pool.columns ∨
      ∃ id, (pool.add column).1.columns = pool.columns ++ [{ column with id }] := by
  have happend : ∀ known : Column α, (pool.append known).1.columns = pool.columns ∨
      (pool.append known).1.columns = pool.columns ++ [known] := by
    intro known
    rw [append]
    split
    · exact Or.inl rfl
    · exact Or.inr rfl
  rw [add]
  split
  · exact (happend _).imp_right fun heq => ⟨_, heq⟩
  · split
    · exact Or.inl rfl
    · exact Or.inl rfl
    · exact (happend _).imp_right fun heq => ⟨_, heq⟩

end ColumnPool

namespace Cover

/-- Whether a cover is another one with other entries in the journal. -/
def Noted (before after : Cover ε α) : Prop :=
  ∃ journal, after = { before with problem := { before.problem with journal } }

/-- A cover is itself with its own journal. -/
theorem Noted.refl (cover : Cover ε α) : cover.Noted cover := ⟨_, rfl⟩

/-- Entries in the journal may be made one after the other. -/
theorem Noted.trans {first middle last : Cover ε α} (h : first.Noted middle)
    (hlast : middle.Noted last) : first.Noted last := by
  obtain ⟨_, rfl⟩ := h
  obtain ⟨journal, rfl⟩ := hlast
  exact ⟨journal, rfl⟩

/-- Entries in the journal change no columns. -/
theorem Noted.pool_eq {before after : Cover ε α} (h : before.Noted after) :
    after.pool = before.pool := by
  obtain ⟨_, rfl⟩ := h
  rfl

/-- Entries in the journal change no items. -/
theorem Noted.items_eq {before after : Cover ε α} (h : before.Noted after) :
    after.items = before.items := by
  obtain ⟨_, rfl⟩ := h
  rfl

/-- Entries in the journal change no engine. -/
theorem Noted.engine_eq {before after : Cover ε α} (h : before.Noted after) :
    after.problem.engine = before.problem.engine := by
  obtain ⟨_, rfl⟩ := h
  rfl

/-- Telling of an event changes nothing but the journal. -/
theorem noted_tell (cover : Cover ε α) (event : Event) : cover.Noted (cover.tell event).1 := by
  obtain ⟨journal, hjournal⟩ := cover.problem.exists_tell event
  refine ⟨journal, ?_⟩
  change { cover with problem := (cover.problem.tell event).1 } = _
  rw [hjournal]

/-- Making variables integer or continuous keeps the books. -/
theorem keepsBooks_setIntegers (engine : Engine ε α) (isInteger : Bool) (handles : List Handle)
    (problem : Problem ε) :
    problem.KeepsBooks (setIntegers engine isInteger handles problem).1 := by
  induction handles generalizing problem with
  | nil => exact .refl problem
  | cons handle rest ih =>
    rw [setIntegers]
    split
    · exact .refl problem
    · next changed hchanged =>
      obtain ⟨_, -, hchanged⟩ := bind_eq_ok.mp hchanged
      obtain ⟨state, -, hchanged⟩ := bind_eq_ok.mp hchanged
      obtain rfl := Except.ok.inj hchanged
      exact Problem.KeepsBooks.trans ⟨_, _, _, rfl⟩ (ih _)

variable [Quantity α] {engine : Engine ε α}

/-- Writing coefficients keeps the books. -/
theorem keepsBooks_writeCounts (engine : Engine ε α) (handle : Handle)
    (pairs : List (Nat × Handle)) (problem : Problem ε) :
    problem.KeepsBooks (writeCounts engine handle pairs problem).1 := by
  induction pairs generalizing problem with
  | nil => exact .refl problem
  | cons pair rest ih =>
    obtain ⟨count, row⟩ := pair
    rw [writeCounts]
    split
    · exact ih problem
    · rcases problem.addCoefficient_cases engine row handle (Quantity.ofInt count) with
        ⟨fault, h⟩ | ⟨coefficient, state, fault | done, -, -, h⟩ <;> rw [h]
      · exact .refl problem
      · exact ⟨_, _, _, rfl⟩
      · exact Problem.KeepsBooks.trans ⟨_, _, _, rfl⟩ (ih _)

/-- What adding a column comes to: it is refused by a check or by the name of its variable or by the
engine, which leaves everything as it was; or the engine fails at one of its coefficients, which
leaves a variable in the problem that belongs to no column; or the column is put into the pool. -/
theorem addColumn_cases (engine : Engine ε α) (cover : Cover ε α) (column : Column α)
    (name : Datum) :
    (∃ fault, cover.addColumn engine column name = (cover, .error fault)) ∨
    ∃ title extended handle written, cover.checkColumn column = .ok () ∧
      cover.problem.addVariable engine (variableOf column title) = .ok (extended, handle) ∧
      ((∃ fault, writeCounts engine handle (column.counts.zip cover.rows) extended =
          (written, .error fault) ∧
        cover.addColumn engine column name = ({ cover with problem := written }, .error fault)) ∨
      (writeCounts engine handle (column.counts.zip cover.rows) extended = (written, .ok ()) ∧
        cover.addColumn engine column name = { cover with problem := written }.store
          { column with id := cover.idFor column } handle)) := by
  simp only [Cover.addColumn]
  split
  · next fault _ => exact Or.inl ⟨fault, rfl⟩
  · next hcheck =>
    split
    · next fault _ => exact Or.inl ⟨fault, rfl⟩
    · next extended handle hvariable =>
      obtain ⟨title, -, hadded⟩ := bind_eq_ok.mp hvariable
      split
      · next written fault hwritten =>
        exact Or.inr ⟨title, extended, handle, written, hcheck, hadded,
          Or.inl ⟨fault, hwritten, rfl⟩⟩
      · next written hwritten =>
        exact Or.inr ⟨title, extended, handle, written, hcheck, hadded, Or.inr ⟨hwritten, rfl⟩⟩

/-- What a column that is added went through: it was accepted, the engine took its variable and its
coefficients, and the pool took it together with its handle. -/
theorem of_addColumn {cover grown : Cover ε α} {column stored : Column α} {name : Datum}
    (h : cover.addColumn engine column name = (grown, .ok stored)) :
    ∃ title extended handle written pool, cover.checkColumn column = .ok () ∧
      cover.problem.addVariable engine (variableOf column title) = .ok (extended, handle) ∧
      writeCounts engine handle (column.counts.zip cover.rows) extended = (written, .ok ()) ∧
      cover.pool.add { column with id := cover.idFor column } = (pool, .ok stored) ∧
      Noted { cover with problem := written, pool, handles := cover.handles ++ [handle] } grown := by
  rcases cover.addColumn_cases engine column name with
    ⟨fault, hrefused⟩ | ⟨title, extended, handle, written, hcheck, hadded,
      ⟨fault, -, hfailed⟩ | ⟨hwritten, hstored⟩⟩
  · rw [hrefused] at h
    cases h
  · rw [hfailed] at h
    cases h
  · rw [hstored] at h
    simp only [store] at h
    split at h
    · cases h
    · next pool added hpool =>
      obtain ⟨hgrown, h⟩ := Prod.mk.inj h
      obtain ⟨_, -, rfl⟩ := map_eq_ok.mp h
      exact ⟨title, extended, handle, written, pool, hcheck, hadded, hwritten, hpool,
        hgrown ▸ noted_tell _ _⟩

/-- A column that is added stands at the end of the pool. -/
theorem columns_of_addColumn {cover grown : Cover ε α} {column stored : Column α} {name : Datum}
    (h : cover.addColumn engine column name = (grown, .ok stored)) :
    (∃ id, stored = { column with id }) ∧
      grown.pool.columns = cover.pool.columns ++ [stored] := by
  obtain ⟨_, _, _, _, pool, -, -, -, hpool, hnoted⟩ := of_addColumn h
  obtain ⟨⟨id, rfl⟩, hcolumns⟩ := ColumnPool.columns_of_add hpool
  refine ⟨⟨id, rfl⟩, ?_⟩
  rw [hnoted.pool_eq]
  exact hcolumns

/-- However adding a column ends, the items are the same. -/
theorem items_addColumn (engine : Engine ε α) (cover : Cover ε α) (column : Column α)
    (name : Datum) : (cover.addColumn engine column name).1.items = cover.items := by
  rcases cover.addColumn_cases engine column name with
    ⟨fault, hrefused⟩ | ⟨title, extended, handle, written, -, -, ⟨fault, -, hfailed⟩ | ⟨-, hstored⟩⟩
  · rw [hrefused]
  · rw [hfailed]
  · rw [hstored, store]
    split
    · rfl
    · rw [(noted_tell _ _).items_eq]

/-- Adding a column keeps the items. -/
theorem items_of_addColumn {cover grown : Cover ε α} {column stored : Column α} {name : Datum}
    (h : cover.addColumn engine column name = (grown, .ok stored)) : grown.items = cover.items := by
  have hsame := cover.items_addColumn engine column name
  rwa [h] at hsame

/-- However adding a column ends, the pool is as it was or has the column at its end. -/
theorem columns_addColumn (engine : Engine ε α) (cover : Cover ε α) (column : Column α)
    (name : Datum) :
    (cover.addColumn engine column name).1.pool.columns = cover.pool.columns ∨
      ∃ id, (cover.addColumn engine column name).1.pool.columns =
        cover.pool.columns ++ [{ column with id }] := by
  rcases cover.addColumn_cases engine column name with
    ⟨fault, hrefused⟩ | ⟨title, extended, handle, written, -, -, ⟨fault, -, hfailed⟩ | ⟨-, hstored⟩⟩
  · rw [hrefused]
    exact Or.inl rfl
  · rw [hfailed]
    exact Or.inl rfl
  · rw [hstored, store]
    have hadd := cover.pool.columns_add { column with id := cover.idFor column }
    split
    · next pool fault hpool =>
      rw [hpool] at hadd
      exact hadd
    · next pool stored hpool =>
      rw [hpool] at hadd
      rw [(noted_tell _ _).pool_eq]
      exact hadd

/-- Seeding keeps whatever adding a column of a single item keeps. -/
theorem seed_keeps {P : Cover ε α → Prop}
    (hadd : ∀ (cover : Cover ε α) (item : Nat) (name : Datum), P cover →
      P (cover.addColumn engine (Column.single cover.numItems item) name).1)
    {cover : Cover ε α} (h : P cover) (items : List Nat) : P (cover.seed engine items).1 := by
  induction items generalizing cover with
  | nil => exact h
  | cons item rest ih =>
    have hnext := hadd cover item (.text s!"init_{item}") h
    rw [Cover.seed]
    split
    · next grown fault hadded =>
      rw [hadded] at hnext
      exact hnext
    · next grown stored hadded =>
      rw [hadded] at hnext
      exact ih hnext

/-- Seeding that succeeds adds the columns of single items one after the other. -/
theorem of_seed {P : List Nat → Cover ε α → Prop}
    (hadd : ∀ (done : List Nat) (item : Nat) (name : Datum) (cover grown : Cover ε α)
      (stored : Column α), P done cover →
      cover.addColumn engine (Column.single cover.numItems item) name = (grown, .ok stored) →
      P (done ++ [item]) grown)
    {cover final : Cover ε α} {items : List Nat} (done : List Nat) (hfirst : P done cover)
    (h : cover.seed engine items = (final, .ok ())) : P (done ++ items) final := by
  induction items generalizing cover done with
  | nil =>
    obtain ⟨rfl, -⟩ := Prod.mk.inj h
    rwa [List.append_nil]
  | cons item rest ih =>
    rw [Cover.seed] at h
    split at h
    · cases h
    · next grown stored hadded =>
      have hnext := ih _ (hadd _ _ _ _ _ _ hfirst hadded) h
      rwa [List.append_assoc, List.singleton_append] at hnext

/-- A cover that is built with columns has rows that were added, and then the columns of single
items. -/
theorem of_build {cover : Cover ε α} {problem : Problem ε} {items : List Item} {name : Datum}
    (h : Cover.build engine problem items name true = (cover, .ok ())) :
    ∃ created ruled rows, problem.create engine name .minimize = (created, .ok ()) ∧
      addRows engine 0 items created [] = ((ruled, rows), .ok ()) ∧
      Cover.seed engine { items, problem := ruled, rows } (List.range items.length) =
        (cover, .ok ()) := by
  simp only [Cover.build] at h
  split at h
  · cases h
  · split at h
    · cases h
    · next created hcreated =>
      split at h
      · cases h
      · next ruled rows hruled => exact ⟨created, ruled, rows, hcreated, hruled, by simpa using h⟩

/-- A cover that is built has what its rows have and what adding a column of a single item keeps. -/
theorem build_keeps {P : Cover ε α → Prop}
    (hadd : ∀ (cover : Cover ε α) (item : Nat) (name : Datum), P cover →
      P (cover.addColumn engine (Column.single cover.numItems item) name).1)
    {cover : Cover ε α} {problem : Problem ε} {items : List Item} {name : Datum} {seeded : Bool}
    (h : Cover.build engine problem items name seeded = (cover, .ok ()))
    (hrows : ∀ (created ruled : Problem ε) (rows : List Handle), items ≠ [] →
      problem.create engine name .minimize = (created, .ok ()) →
      addRows engine 0 items created [] = ((ruled, rows), .ok ()) →
      P { items, problem := ruled, rows }) : P cover := by
  simp only [Cover.build] at h
  split at h
  · cases h
  · next hitems =>
    split at h
    · cases h
    · next created hcreated =>
      split at h
      · cases h
      · next ruled rows hruled =>
        have hbare := hrows created ruled rows (by simpa using hitems) hcreated hruled
        split at h
        · have hseeded := seed_keeps hadd hbare (List.range items.length)
          rw [h] at hseeded
          exact hseeded
        · rw [← (Prod.mk.inj h).1]
          exact hbare

/-- Solving the relaxation solves the problem, and keeps everything else but the latest solution. -/
theorem exists_solveRelaxation (engine : Engine ε α) (cover : Cover ε α) (tolerance : α) :
    ∃ last, (cover.solveRelaxation engine tolerance).1 =
      { cover with problem := (cover.problem.solve engine).1, last } := by
  simp only [Cover.solveRelaxation]
  split
  · next solved fault hsolve => exact ⟨_, by rw [hsolve]⟩
  · next solved status hsolve =>
    rw [hsolve]
    split
    · split
      · exact ⟨_, rfl⟩
      · exact ⟨_, rfl⟩
    · exact ⟨_, rfl⟩

/-- A relaxation that is solved was solved to the optimum, and its solution was collected from the
problem as it then was. -/
theorem of_solveRelaxation {cover after : Cover ε α} {tolerance : α} {solution : CoverSolution α}
    (h : cover.solveRelaxation engine tolerance = (after, .ok solution)) :
    ∃ solved, cover.problem.solve engine = (solved, .ok .optimal) ∧
      collectRelaxed engine { cover with problem := solved } tolerance = .ok solution ∧
      after = { cover with problem := solved, last := some solution } := by
  simp only [Cover.solveRelaxation] at h
  split at h
  · cases h
  · next solved status hsolve =>
    split at h
    · next hstatus =>
      subst hstatus
      split at h
      · cases h
      · next found hcollect =>
        obtain ⟨rfl, hfound⟩ := Prod.mk.inj h
        obtain rfl := Except.ok.inj hfound
        exact ⟨solved, hsolve, hcollect, rfl⟩
    · cases h

/-- A relaxation that is solved has the columns and the items that it had. -/
theorem pool_of_solveRelaxation {cover after : Cover ε α} {tolerance : α}
    {solution : CoverSolution α}
    (h : cover.solveRelaxation engine tolerance = (after, .ok solution)) :
    after.pool = cover.pool ∧ after.items = cover.items := by
  obtain ⟨solved, -, -, rfl⟩ := of_solveRelaxation h
  exact ⟨rfl, rfl⟩

/-- An integer restriction that is solved was solved to the optimum with integer variables, and its
solution was collected from the problem as it then was. -/
theorem of_solveRestriction {cover after : Cover ε α} {tolerance : α} {solution : CoverSolution α}
    (h : cover.solveRestriction engine tolerance = (after, .ok solution)) :
    ∃ changed solved restored,
      setIntegers engine true cover.handles cover.problem = (changed, .ok ()) ∧
      changed.solve engine = (solved, .ok .optimal) ∧
      collect engine { cover with problem := solved } tolerance true = .ok solution ∧
      after = { cover with problem := restored } := by
  simp only [Cover.solveRestriction] at h
  split at h
  · cases h
  · next changed hchanged =>
    split at h
    · cases h
    · next restored hrestored =>
      obtain ⟨rfl, hsolution⟩ := Prod.mk.inj h
      obtain ⟨status, hstatus, hsolution⟩ := bind_eq_ok.mp hsolution
      split at hsolution
      · next hoptimal =>
        subst hoptimal
        exact ⟨changed, _, restored, hchanged, Prod.ext rfl hstatus, hsolution, rfl⟩
      · cases hsolution

/-- Solving the integer restriction keeps everything but the problem: its variables are made integer
and, unless that fails, it is solved and they are made continuous again. -/
theorem solveRestriction_cases (engine : Engine ε α) (cover : Cover ε α) (tolerance : α) :
    (cover.solveRestriction engine tolerance).1 =
        { cover with problem := (setIntegers engine true cover.handles cover.problem).1 } ∨
      (cover.solveRestriction engine tolerance).1 =
        { cover with problem := (setIntegers engine false cover.handles
          ((setIntegers engine true cover.handles cover.problem).1.solve engine).1).1 } := by
  simp only [Cover.solveRestriction]
  split
  · next changed fault hset => exact Or.inl (by rw [hset])
  · next changed hset =>
    rw [hset]
    refine Or.inr ?_
    split
    · next restored fault hfailed => rw [hfailed]
    · next restored hdone => rw [hdone]

end Cover

end PatternCovering
