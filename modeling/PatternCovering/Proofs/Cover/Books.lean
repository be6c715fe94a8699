import PatternCovering.Proofs.Column.Pool
import PatternCovering.Proofs.Cover.Changes

/-!
# The books of a cover

A cover keeps several lists that have to stay in step: the columns of the pool with their
identifiers, the handles of their variables, and the rows with what may be changed about them. A
problem whose engine alone has changed keeps them so, and adding a column does as long as identifiers
are integers, wherever it fails: a column is only ever put into the pool together with its handle, and
a failure on the way leaves both lists as they were.
-/

namespace PatternCovering

variable {ε α : Type} [Quantity α]

namespace Cover

variable {cover : Cover ε α} {column : Column α} {engine : Engine ε α}

/-- A column that is accepted is as long as there are items, it is not in the pool, its identifier is
free, and it uses no fixed row. -/
theorem of_checkColumn (h : cover.checkColumn column = .ok ()) :
    column.counts.length = cover.numItems ∧ cover.hasColumn column = .ok false ∧
      cover.checkId column.id = .ok () ∧ cover.fixedRow? column = none := by
  rw [checkColumn] at h
  split at h
  · cases h
  · next hlength =>
    obtain ⟨known, hknown, h⟩ := bind_eq_ok.mp h
    cases known with
    | true => cases h
    | false =>
      obtain ⟨_, hid, h⟩ := bind_eq_ok.mp h
      refine ⟨not_not.mp hlength, hknown, hid, ?_⟩
      split at h
      · cases h
      · next hrow => exact hrow

/-- A column that is not in the pool can be a key, and differs from all columns of the pool. -/
theorem of_hasColumn (h : cover.hasColumn column = .ok false) :
    Quantity.requireKey column.cost = .ok () ∧
      ∀ known ∈ cover.pool.columns, known.same column = false := by
  obtain ⟨_, hkey, h⟩ := bind_eq_ok.mp h
  refine ⟨hkey, fun known hknown => ?_⟩
  have hany := List.any_eq_false.mp (Except.ok.inj h) known hknown
  exact Bool.eq_false_iff.mpr hany

omit [Quantity α] in
/-- The identifier that an accepted column gets in a numbered pool is an integer that is free. -/
theorem exists_idFor (h : cover.pool.Numbered) (hid : column.HasIntegerId)
    (hcheck : cover.checkId column.id = .ok ()) :
    ∃ id : Int, cover.idFor column = .int id ∧
      ∀ known ∈ cover.pool.columns, known.id.same (.int id) = false := by
  rcases hid with hnull | ⟨id, hid⟩
  · obtain ⟨next, hnext, -⟩ := h.exists_next
    exact ⟨next, by simp [idFor, hnull, hnext], h.nextId_free hnext⟩
  · refine ⟨id, by simp [idFor, hid, Datum.int], fun known hknown => ?_⟩
    rw [hid] at hcheck
    obtain ⟨found, hfound, hcheck⟩ := bind_eq_ok.mp hcheck
    obtain ⟨_, -, hfound⟩ := bind_eq_ok.mp hfound
    obtain rfl := Except.ok.inj hfound
    split at hcheck
    · cases hcheck
    · next hnone =>
      rw [ColumnPool.find?, Bool.not_eq_true, Option.isSome_eq_false_iff, Option.isNone_iff_eq_none,
        List.find?_eq_none] at hnone
      exact Bool.eq_false_iff.mpr (hnone known (List.mem_reverse.mpr hknown))

/-- A cover with one more column and its handle, in a problem that has its variable. -/
def grown (cover : Cover ε α) (problem : Problem ε) (stored : Column α) (nextId : Datum)
    (handle : Handle) : Cover ε α :=
  { cover with
    problem := problem.record (.columnAdded stored.id stored.pattern)
    pool := ⟨cover.pool.columns ++ [stored], nextId⟩
    handles := cover.handles ++ [handle] }

/-- What the operations of a cover keep, whatever its engine does. -/
structure Books (cover : Cover ε α) : Prop where
  created : cover.problem.isCreated = true
  hears : ∀ event, cover.problem.listener event = .ok ()
  index_rows : cover.rows.map (·.index) = List.range cover.numItems
  length_constraints : cover.problem.constraints.length = cover.numItems
  length_modifiable : cover.problem.modifiable.length = cover.numItems
  numbered : cover.pool.Numbered
  distinct : cover.pool.columns.Pairwise fun left right => left.same right = false
  length_counts : ∀ column ∈ cover.pool.columns, column.counts.length = cover.numItems
  length_handles : cover.handles.length = cover.pool.columns.length
  increasing : cover.handles.Pairwise fun left right => left.index < right.index
  handle_lt : ∀ handle ∈ cover.handles, handle.index < cover.problem.vars.length

namespace Books

/-- A problem that keeps its books keeps those of the cover, and so does one more variable. -/
theorem of_problem {problem : Problem ε} (h : cover.Books) (more : List Handle)
    (hkeeps : Problem.KeepsBooks { cover.problem with vars := cover.problem.vars ++ more } problem) :
    Books { cover with problem } := by
  obtain ⟨engine, status, journal, rfl⟩ := hkeeps
  exact {
    h with
    handle_lt := fun handle hhandle => by
      have hlt := h.handle_lt handle hhandle
      rw [List.length_append]
      omega }

/-- A problem that keeps its books keeps those of the cover. -/
theorem of_keepsBooks {problem : Problem ε} (h : cover.Books)
    (hkeeps : cover.problem.KeepsBooks problem) : Books { cover with problem } :=
  h.of_problem [] (by rwa [List.append_nil])

/-- An accepted column is taken by the pool, and with its handle the books are kept. -/
theorem exists_store (h : cover.Books) (hid : column.HasIntegerId)
    (hcheck : cover.checkColumn column = .ok ()) {problem : Problem ε} {handle : Handle}
    (hhandle : handle.index = cover.problem.vars.length)
    (hkeeps : Problem.KeepsBooks { cover.problem with vars := cover.problem.vars ++ [handle] }
      problem) :
    ∃ nextId, ColumnPool.idAfter cover.pool.nextId (cover.idFor column) = .ok nextId ∧
      { cover with problem }.store { column with id := cover.idFor column } handle =
        (cover.grown problem { column with id := cover.idFor column } nextId handle,
          .ok { column with id := cover.idFor column }) ∧
      (cover.grown problem { column with id := cover.idFor column } nextId handle).Books := by
  obtain ⟨hlength, hnew, hfree, -⟩ := of_checkColumn hcheck
  obtain ⟨hkey, hother⟩ := of_hasColumn hnew
  obtain ⟨id, hidFor, hfree⟩ := exists_idFor h.numbered hid hfree
  have hbooks := h.of_problem [handle] hkeeps
  have hvars : problem.vars = cover.problem.vars ++ [handle] := by
    obtain ⟨_, _, _, rfl⟩ := hkeeps
    rfl
  -- the column is only looked at through its cost and its counts from here on
  rw [hidFor]
  generalize hstored : { column with id := .int id } = stored
  have hcost : Quantity.requireKey stored.cost = .ok () := by rw [← hstored]; exact hkey
  have hstoredId : stored.id = .int id := by rw [← hstored]
  have hcounts : stored.counts.length = cover.numItems := by rw [← hstored]; exact hlength
  have hdistinct : ∀ known ∈ cover.pool.columns, known.same stored = false := by
    rw [← hstored]
    exact hother
  obtain ⟨nextId, hnext, hadd, hnumbered⟩ := h.numbered.add hstoredId hfree hcost
  refine ⟨nextId, by rw [← hstoredId, hnext], ?_, ?_⟩
  · have hhears : problem.listener (.columnAdded stored.id stored.pattern) = .ok () :=
      hbooks.hears _
    simp only [store, hadd, Cover.tell, Problem.tell, hhears]
    rfl
  · exact {
      hbooks with
      numbered := hnumbered
      distinct := List.pairwise_append.mpr ⟨h.distinct, List.pairwise_singleton _ _, by
        intro known hknown last hlast
        rw [List.mem_singleton.mp hlast]
        exact hdistinct known hknown⟩
      length_counts := by
        intro known hknown
        rcases List.mem_append.mp hknown with hknown | hknown
        · exact h.length_counts known hknown
        · rw [List.mem_singleton.mp hknown]
          exact hcounts
      length_handles := by
        simp only [grown, List.length_append, h.length_handles]
        rfl
      increasing := List.pairwise_append.mpr ⟨h.increasing, List.pairwise_singleton _ _, by
        intro known hknown last hlast
        rw [List.mem_singleton.mp hlast, hhandle]
        exact h.handle_lt known hknown⟩
      handle_lt := by
        intro known hknown
        change known.index < problem.vars.length
        rw [hvars, List.length_append]
        rcases List.mem_append.mp hknown with hknown | hknown
        · exact Nat.lt_add_right _ (h.handle_lt known hknown)
        · rw [List.mem_singleton.mp hknown, hhandle]
          exact Nat.lt_succ_self _ }

/-- What adding a column comes to while the books are kept: everything is as it was, or a variable
was added that belongs to no column, or the cover has grown. -/
theorem addColumn_cases (h : cover.Books) (hid : column.HasIntegerId) (engine : Engine ε α)
    (name : Datum) :
    (∃ fault, cover.addColumn engine column name = (cover, .error fault)) ∨
    ∃ title extended handle written, cover.checkColumn column = .ok () ∧
      cover.problem.addVariable engine (variableOf column title) = .ok (extended, handle) ∧
      ((∃ fault, writeCounts engine handle (column.counts.zip cover.rows) extended =
          (written, .error fault) ∧
        cover.addColumn engine column name = ({ cover with problem := written }, .error fault) ∧
        Books { cover with problem := written }) ∨
      ∃ nextId, ColumnPool.idAfter cover.pool.nextId (cover.idFor column) = .ok nextId ∧
        writeCounts engine handle (column.counts.zip cover.rows) extended = (written, .ok ()) ∧
        cover.addColumn engine column name =
          (cover.grown written { column with id := cover.idFor column } nextId handle,
            .ok { column with id := cover.idFor column }) ∧
        (cover.grown written { column with id := cover.idFor column } nextId handle).Books) := by
  rcases cover.addColumn_cases engine column name with
    hrefused | ⟨title, extended, handle, written, hcheck, hadded, hcases⟩
  · exact Or.inl hrefused
  · refine Or.inr ⟨title, extended, handle, written, hcheck, hadded, ?_⟩
    obtain ⟨hhandle, state, -, hextended⟩ := Problem.of_addVariable hadded
    have hkeeps := keepsBooks_writeCounts engine handle (column.counts.zip cover.rows) extended
    have hmore : Problem.KeepsBooks { cover.problem with vars := cover.problem.vars ++ [handle] }
        extended := ⟨state, .notSolved, cover.problem.journal, hextended⟩
    rcases hcases with ⟨fault, hwritten, hfailed⟩ | ⟨hwritten, hstored⟩
    · rw [hwritten] at hkeeps
      exact Or.inl ⟨fault, hwritten, hfailed, h.of_problem [handle] (hmore.trans hkeeps)⟩
    · rw [hwritten] at hkeeps
      obtain ⟨nextId, hnext, hstore, hbooks⟩ := h.exists_store hid hcheck (by rw [hhandle])
        (hmore.trans hkeeps)
      exact Or.inr ⟨nextId, hnext, hwritten, hstored.trans hstore, hbooks⟩

/-- A column that is not added leaves the pool and the handles as they were. -/
theorem of_addColumn_error (h : cover.Books) (hid : column.HasIntegerId) {name : Datum}
    {fault : Fault} (herror : (cover.addColumn engine column name).2 = .error fault) :
    (cover.addColumn engine column name).1.pool = cover.pool ∧
      (cover.addColumn engine column name).1.handles = cover.handles := by
  rcases h.addColumn_cases hid engine name with
    ⟨fault, hsame⟩ | ⟨_, _, _, _, -, -, ⟨fault, -, hsame, -⟩ | ⟨_, -, -, hsame, -⟩⟩
  · rw [hsame]
    exact ⟨rfl, rfl⟩
  · rw [hsame]
    exact ⟨rfl, rfl⟩
  · rw [hsame] at herror
    cases herror

/-- Allowing or forbidding changes of a row keeps the books. -/
theorem setModifiable (h : cover.Books) {given : Reference} {modifiable : Datum}
    {problem : Problem ε} (hset : cover.problem.setModifiable given modifiable = .ok problem) :
    Books { cover with problem } := by
  obtain ⟨_, -, hset⟩ := bind_eq_ok.mp hset
  obtain ⟨row, -, hset⟩ := bind_eq_ok.mp hset
  obtain rfl := Except.ok.inj hset
  exact { h with length_modifiable := List.length_set.trans h.length_modifiable }

end Books

/-- What the rows of a new problem keep while they are added one after the other. -/
structure Ruled (rows : List Handle) (problem : Problem ε) : Prop where
  hears : ∀ event, problem.listener event = .ok ()
  index_rows : rows.map (·.index) = List.range rows.length
  length_constraints : problem.constraints.length = rows.length
  length_modifiable : problem.modifiable.length = rows.length

/-- A row that is added gets the next number. -/
theorem Ruled.addConstraint {rows : List Handle} {problem extended : Problem ε} (h : Ruled rows problem)
    {row : Row α} {modifiable : Datum} {handle : Handle}
    (hadd : problem.addConstraint engine row [] modifiable = (extended, .ok handle)) :
    Ruled (rows ++ [handle]) extended ∧ extended.isCreated = true := by
  obtain ⟨hcreated, rfl, _, _, -, -, rfl⟩ := Problem.of_addConstraint hadd
  refine ⟨⟨h.hears, ?_, ?_, ?_⟩, hcreated⟩
  · rw [List.map_append, h.index_rows, h.length_constraints, List.length_append]
    exact List.range_succ.symm
  · rw [List.length_append, List.length_append, h.length_constraints, List.length_singleton]
  · rw [List.length_append, List.length_append, h.length_modifiable, List.length_singleton,
      List.length_singleton]

/-- Rows that are added are numbered one after the other, in a problem that was created. -/
theorem Ruled.addRows {first : Nat} {items : List Item} {rows all : List Handle}
    {problem ruled : Problem ε} (h : Ruled rows problem)
    (hadd : Cover.addRows engine first items problem rows = ((ruled, all), .ok ())) :
    Ruled all ruled ∧ all.length = rows.length + items.length ∧
      (problem.isCreated = true ∨ items ≠ [] → ruled.isCreated = true) := by
  induction items generalizing first rows problem with
  | nil =>
    obtain ⟨hsame, -⟩ := Prod.mk.inj hadd
    obtain ⟨rfl, rfl⟩ := Prod.mk.inj hsame
    exact ⟨h, rfl, fun hcreated => hcreated.resolve_right (not_not.mpr rfl)⟩
  | cons item rest ih =>
    simp only [Cover.addRows] at hadd
    split at hadd
    · cases hadd
    · split at hadd
      · cases hadd
      · next extended handle hadded =>
        obtain ⟨hnext, hcreated⟩ := h.addConstraint hadded
        obtain ⟨hruled, hlength, hfinal⟩ := ih hnext hadd
        refine ⟨hruled, ?_, fun _ => hfinal (Or.inl hcreated)⟩
        rw [hlength, List.length_append, List.length_singleton, List.length_cons]
        omega

/-- A cover of rows without columns has its books in order. -/
theorem Ruled.books {rows : List Handle} {problem : Problem ε} (h : Ruled rows problem)
    (hcreated : problem.isCreated = true) {items : List Item} (hlength : rows.length = items.length) :
    ({ items, problem, rows } : Cover ε α).Books where
  created := hcreated
  hears := h.hears
  index_rows := by
    rw [h.index_rows, hlength]
    rfl
  length_constraints := h.length_constraints.trans hlength
  length_modifiable := h.length_modifiable.trans hlength
  numbered := ⟨⟨0, rfl, fun _ hcolumn => absurd hcolumn List.not_mem_nil⟩, List.Pairwise.nil⟩
  distinct := List.Pairwise.nil
  length_counts _ hcolumn := absurd hcolumn List.not_mem_nil
  length_handles := rfl
  increasing := List.Pairwise.nil
  handle_lt _ hhandle := absurd hhandle List.not_mem_nil

/-- The rows of a cover that is built in a new problem, before it is seeded, have its books in
order. -/
theorem Books.of_addRows {state : ε} {listener : Listener} {items : List Item} {name : Datum}
    {created ruled : Problem ε} {rows : List Handle} (hears : ∀ event, listener event = .ok ())
    (hitems : items ≠ [])
    (hcreated : Problem.create engine { engine := state, listener } name .minimize =
      (created, .ok ()))
    (hrows : addRows engine 0 items created [] = ((ruled, rows), .ok ())) :
    ({ items, problem := ruled, rows } : Cover ε α).Books := by
  have hfirst : Ruled [] created := by
    obtain ⟨_, -, rfl⟩ := Problem.of_create hcreated
    exact ⟨hears, rfl, rfl, rfl⟩
  obtain ⟨hruled, hlength, hfinal⟩ := hfirst.addRows hrows
  exact hruled.books (hfinal (Or.inr hitems)) (by simpa using hlength)

end Cover

end PatternCovering
