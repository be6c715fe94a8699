import PatternCovering.Proofs.Cover.Books
import PatternCovering.Proofs.Double
import PatternCovering.Recorder

/-!
# A cover and the model that its engine has recorded

Over an engine that records, every column of the pool stands in the model under its handle: a
variable from zero on at the cost of the column, with the double nearest to each positive count in
the row of its item, and nothing else. An engine that fails in the middle of a column leaves a
variable behind that belongs to no column, so that indices of variables run ahead of positions in the
pool; the handles keep track of this.
-/

namespace PatternCovering

/-- Columns that differ as keys are not equal. -/
theorem Column.equal_of_same {left right : Column Datum} (h : left.same right = false) :
    left.equal right = false := by
  rw [Column.same, Bool.and_eq_false_iff] at h
  rw [Column.equal, Bool.and_eq_false_iff]
  refine h.imp_right fun hcost => ?_
  rw [Bool.eq_false_iff] at hcost ⊢
  exact fun heq => hcost (Datum.same_of_eq heq)

namespace Model

variable {α : Type}

/-- The entries of the variable at an index. -/
def entriesOf (model : Model α) (index : Nat) : List (Entry α) :=
  model.entries.filter fun entry => entry.column.same (.int index)

/-- An amount for a place that has no entry yet gets an entry of its own. -/
theorem accumulate_eq_append [Quantity α] {row column : Datum} (amount : α)
    {entries : List (Entry α)} (h : ∀ entry ∈ entries, entry.isAt row column = false) :
    accumulate row column amount entries =
      entries ++ [⟨row, column, Quantity.add Quantity.zero amount⟩] := by
  induction entries with
  | nil => rfl
  | cons entry rest ih =>
    have hrest := ih fun other hother => h other (List.mem_cons_of_mem _ hother)
    simp [accumulate, h entry List.mem_cons_self, hrest]

/-- A count for a place that has no entry yet is recorded as it is. -/
theorem addCoefficient_count {model : Model Datum} {row column : Datum} {count : Nat} {amount : Datum}
    (hreal : Quantity.real? (Quantity.ofInt count : Datum) = .ok amount)
    (h : ∀ entry ∈ model.entries, entry.isAt row column = false) :
    model.addCoefficient row column amount =
      { model with entries := model.entries ++ [⟨row, column, amount⟩] } := by
  rw [addCoefficient, accumulate_eq_append amount h, Quantity.zero_add_real hreal]

/-- Whether an entry of the variable at an index is that of an item with its count. -/
def IsTerm (index : Nat) (entry : Entry Datum) (term : Nat × Nat) : Prop :=
  entry.row = .int term.1 ∧ entry.column = .int index ∧
    Quantity.real? (Quantity.ofInt term.2 : Datum) = .ok entry.value

/-- Whether a column stands in a model under a handle: as a variable from zero on at its cost, with
one entry for each item of its pattern. -/
structure Holds (model : Model Datum) (column : Column Datum) (handle : Handle) : Prop where
  variable_eq : ∃ isInteger, model.vars[handle.index]? =
    some ⟨handle.name, some Quantity.zero, none, column.cost, isInteger⟩
  entries_eq : List.Forall₂ (IsTerm handle.index) (model.entriesOf handle.index) column.pattern

/-- A model with one more variable and more entries. -/
def extended (model : Model α) (added : Variable α) (block : List (Entry α)) : Model α :=
  { model with vars := model.vars ++ [added], entries := model.entries ++ block }

variable {model : Model Datum} {column : Column Datum} {handle : Handle} {added : Variable Datum}
  {block : List (Entry Datum)}

/-- A column stands where it stood when the model is extended by another variable. -/
theorem Holds.extended (h : model.Holds column handle)
    (hblock : ∀ entry ∈ block, entry.column = .int model.vars.length) :
    (model.extended added block).Holds column handle := by
  obtain ⟨isInteger, hvariable⟩ := h.variable_eq
  have hlt : handle.index < model.vars.length := (List.getElem?_eq_some_iff.mp hvariable).1
  refine ⟨⟨isInteger, ?_⟩, ?_⟩
  · rw [Model.extended, List.getElem?_append_left hlt]
    exact hvariable
  · have hnone : block.filter (fun entry => entry.column.same (.int handle.index)) = [] := by
      rw [List.filter_eq_nil_iff]
      intro entry hentry
      rw [hblock entry hentry, Datum.same_int, decide_eq_true_eq]
      omega
    rw [entriesOf, Model.extended, List.filter_append, hnone, List.append_nil]
    exact h.entries_eq

/-- A new column stands in a model once its variable and its entries do. -/
theorem holds_extended (hindex : handle.index = model.vars.length)
    (hold : ∀ entry ∈ model.entries, ∃ index < model.vars.length, entry.column = .int index)
    (hblock : ∀ entry ∈ block, entry.column = .int model.vars.length) {isInteger : Datum}
    (hterms : List.Forall₂ (IsTerm handle.index) block column.pattern) :
    (model.extended ⟨handle.name, some Quantity.zero, none, column.cost, isInteger⟩ block).Holds
      column handle := by
  refine ⟨⟨isInteger, ?_⟩, ?_⟩
  · rw [Model.extended, hindex, List.getElem?_concat_length]
  · have hnone : model.entries.filter (fun entry => entry.column.same (.int handle.index)) = [] := by
      rw [List.filter_eq_nil_iff]
      intro entry hentry
      obtain ⟨index, hlt, hcolumn⟩ := hold entry hentry
      rw [hcolumn, Datum.same_int, decide_eq_true_eq]
      omega
    have hall : block.filter (fun entry => entry.column.same (.int handle.index)) = block := by
      rw [List.filter_eq_self]
      intro entry hentry
      rw [hblock entry hentry, hindex, Datum.same_int, decide_eq_true_eq]
    rw [entriesOf, Model.extended, List.filter_append, hnone, hall, List.nil_append]
    exact hterms

/-- Whether a model is another one but for which of its variables are integer. -/
structure Refits (before after : Model α) : Prop where
  entries_eq : after.entries = before.entries
  length_vars : after.vars.length = before.vars.length
  variable_eq : ∀ (i : Nat) (known : Variable α), before.vars[i]? = some known →
    ∃ isInteger, after.vars[i]? = some { known with isInteger }

/-- A model that has not changed is refitted. -/
theorem Refits.of_eq {before after : Model α} (h : after = before) : before.Refits after := by
  subst h
  exact ⟨rfl, rfl, fun _ known hknown => ⟨known.isInteger, hknown⟩⟩

/-- A model may be refitted again. -/
theorem Refits.trans {first middle last : Model α} (h : first.Refits middle)
    (hlast : middle.Refits last) : first.Refits last := by
  refine ⟨hlast.entries_eq.trans h.entries_eq, hlast.length_vars.trans h.length_vars, ?_⟩
  intro i known hknown
  obtain ⟨_, hchanged⟩ := h.variable_eq i known hknown
  obtain ⟨isInteger, hchanged⟩ := hlast.variable_eq i _ hchanged
  exact ⟨isInteger, hchanged⟩

/-- Making a variable integer or continuous refits a model. -/
theorem refits_setInteger (model : Model α) (column : Nat) (isInteger : Datum) :
    model.Refits (model.setInteger column isInteger) := by
  refine ⟨rfl, List.length_modify .., fun i known hknown => ?_⟩
  rw [setInteger, List.getElem?_modify, hknown]
  by_cases hsame : column = i
  · exact ⟨isInteger, by simp [hsame]⟩
  · exact ⟨known.isInteger, by simp [hsame]⟩

/-- A column stands in a model that is refitted. -/
theorem Holds.refits {after : Model Datum} (h : model.Holds column handle)
    (hrefits : model.Refits after) : after.Holds column handle := by
  obtain ⟨_, hvariable⟩ := h.variable_eq
  refine ⟨hrefits.variable_eq _ _ hvariable, ?_⟩
  rw [entriesOf, hrefits.entries_eq]
  exact h.entries_eq

end Model

namespace Recorder

/-- A coefficient is refused, which leaves a recorder as it was, or it is recorded. -/
theorem addCoefficient_cases {α : Type} [Quantity α] (recorder : Recorder α) (row column : Datum)
    (amount : α) :
    (∃ fault, engine.addCoefficient recorder row column amount = (recorder, .error fault)) ∨
      engine.addCoefficient recorder row column amount =
        ({ recorder with model := recorder.model.addCoefficient row column amount }, .ok ()) := by
  simp only [engine]
  split
  · next fault _ => exact Or.inl ⟨fault, rfl⟩
  · exact Or.inl ⟨_, rfl⟩
  · exact Or.inr rfl

/-- A variable that is added is recorded under the next handle. -/
theorem of_addVariable {α : Type} [Quantity α] {problem extended : Problem (Recorder α)}
    {added : Variable α} {handle : Handle}
    (h : problem.addVariable engine added = .ok (extended, handle)) :
    handle = ⟨problem.vars.length, added.name⟩ ∧ extended.vars = problem.vars ++ [handle] ∧
      extended.engine.model = problem.engine.model.addVariable added := by
  obtain ⟨hhandle, state, hstate, rfl⟩ := Problem.of_addVariable h
  exact ⟨hhandle, rfl, by rw [← Except.ok.inj hstate]⟩

/-- A solve leaves the recorded model as it was. -/
theorem model_solve {α : Type} [Quantity α] (problem : Problem (Recorder α)) :
    (problem.solve engine).1.engine.model = problem.engine.model := by
  have hadvance : (engine.solve problem.engine).1.model = problem.engine.model := by
    change problem.engine.advance.1.model = _
    rw [advance]
    split
    · rfl
    · rfl
  rcases problem.solve_cases engine with
    ⟨-, h⟩ | ⟨state, fault, hstate, h⟩ | ⟨state, status, hstate, h⟩ <;> rw [h]
  · rw [hstate] at hadvance
    exact hadvance
  · rw [hstate] at hadvance
    exact hadvance

/-- Making variables integer or continuous refits the recorded model. -/
theorem refits_setIntegers {α : Type} [Quantity α] (isInteger : Bool) (handles : List Handle)
    (problem : Problem (Recorder α)) :
    problem.engine.model.Refits
      (Cover.setIntegers engine isInteger handles problem).1.engine.model := by
  induction handles generalizing problem with
  | nil => exact .of_eq rfl
  | cons handle rest ih =>
    rw [Cover.setIntegers]
    split
    · exact .of_eq rfl
    · next changed hchanged =>
      obtain ⟨_, -, hchanged⟩ := bind_eq_ok.mp hchanged
      obtain ⟨state, hset, hchanged⟩ := bind_eq_ok.mp hchanged
      obtain ⟨place, -, hset⟩ := bind_eq_ok.mp hset
      have hmodel : changed.engine.model =
          problem.engine.model.setInteger place (.flag isInteger) := by
        rw [← Except.ok.inj hchanged, ← Except.ok.inj hset]
      have hrefits := problem.engine.model.refits_setInteger place (.flag isInteger)
      rw [← hmodel] at hrefits
      exact hrefits.trans (ih changed)

/-- A count that is added to a modifiable row is refused, or it is recorded as it is. -/
theorem addCount_cases {problem written : Problem (Recorder Datum)} {row handle : Handle}
    {count : Nat} {outcome : Except Fault Unit}
    (hfree : ∀ entry ∈ problem.engine.model.entries,
      entry.isAt (.int row.index) (.int handle.index) = false)
    (h : problem.addCoefficient engine row.asConstraint handle.asVariable (Quantity.ofInt count) =
      (written, outcome)) :
    (∃ fault, outcome = .error fault ∧ written.engine.model = problem.engine.model) ∨
      outcome = .ok () ∧ ∃ amount, Quantity.real? (Quantity.ofInt count : Datum) = .ok amount ∧
        written.engine.model = { problem.engine.model with
          entries := problem.engine.model.entries ++
            [⟨.int row.index, .int handle.index, amount⟩] } := by
  rcases problem.addCoefficient_cases engine row handle (Quantity.ofInt count : Datum) with
    ⟨fault, hadd⟩ | ⟨amount, state, answer, hreal, hasked, hadd⟩
  · obtain ⟨rfl, rfl⟩ := Prod.mk.inj (hadd.symm.trans h)
    exact Or.inl ⟨fault, rfl, rfl⟩
  · obtain ⟨rfl, rfl⟩ := Prod.mk.inj (hadd.symm.trans h)
    rcases problem.engine.addCoefficient_cases (.int row.index) (.int handle.index) amount with
      ⟨fault, hrefused⟩ | htaken
    · obtain ⟨rfl, rfl⟩ := Prod.mk.inj (hrefused.symm.trans hasked)
      exact Or.inl ⟨fault, rfl, rfl⟩
    · obtain ⟨rfl, rfl⟩ := Prod.mk.inj (htaken.symm.trans hasked)
      exact Or.inr ⟨rfl, amount, hreal, Model.addCoefficient_count hreal hfree⟩

end Recorder

namespace Cover

open Model

/-- Whether all entries of a variable stand in rows before one of them. -/
def IsFresh (entries : List (Entry Datum)) (index first : Nat) : Prop :=
  ∀ entry ∈ entries, ∃ other : Nat, entry.column = .int other ∧
    (other = index → ∃ item < first, entry.row = .int item)

/-- Entries before a row are before the next one. -/
theorem IsFresh.succ {entries : List (Entry Datum)} {index first : Nat}
    (h : IsFresh entries index first) : IsFresh entries index (first + 1) := by
  intro entry hentry
  obtain ⟨other, hcolumn, hitem⟩ := h entry hentry
  refine ⟨other, hcolumn, fun hsame => ?_⟩
  obtain ⟨item, hlt, hitem⟩ := hitem hsame
  exact ⟨item, by omega, hitem⟩

/-- An entry at a row is before the next one. -/
theorem IsFresh.append {entries : List (Entry Datum)} {index first : Nat}
    (h : IsFresh entries index first) (amount : Datum) :
    IsFresh (entries ++ [⟨.int first, .int index, amount⟩]) index (first + 1) := by
  intro entry hentry
  rcases List.mem_append.mp hentry with hold | hnew
  · exact h.succ entry hold
  · rw [List.mem_singleton.mp hnew]
    exact ⟨index, rfl, fun _ => ⟨first, by omega, rfl⟩⟩

/-- No entry of a variable stands at a row if all of them stand before it. -/
theorem IsFresh.isAt {entries : List (Entry Datum)} {index first : Nat}
    (h : IsFresh entries index first) :
    ∀ entry ∈ entries, entry.isAt (.int first) (.int index) = false := by
  intro entry hentry
  obtain ⟨other, hcolumn, hitem⟩ := h entry hentry
  rw [Entry.isAt, hcolumn, Datum.same_int, Bool.and_eq_false_iff, decide_eq_false_iff_not]
  by_cases hsame : other = index
  · obtain ⟨item, hlt, hitem⟩ := hitem hsame
    rw [hitem, Datum.same_int, decide_eq_false_iff_not]
    omega
  · omega

/-- What writing the counts of a column does to the model: it gets one more entry for each positive
count, in the order of the items, as far as the engine takes them. -/
theorem exists_writeCounts {handle : Handle} {counts : List Nat} {rows : List Handle} {first : Nat}
    {problem written : Problem (Recorder Datum)} {outcome : Except Fault Unit}
    (hrows : rows.map (·.index) = List.range' first counts.length)
    (hfresh : IsFresh problem.engine.model.entries handle.index first)
    (h : writeCounts Recorder.engine handle (counts.zip rows) problem = (written, outcome)) :
    ∃ block, written.engine.model =
        { problem.engine.model with entries := problem.engine.model.entries ++ block } ∧
      (∀ entry ∈ block, entry.column = .int handle.index) ∧
      (outcome = .ok () →
        List.Forall₂ (IsTerm handle.index) block (Pattern.ofCountsFrom first counts)) := by
  induction counts generalizing first rows problem with
  | nil =>
    obtain ⟨rfl, -⟩ := Prod.mk.inj h
    exact ⟨[], by simp, by simp, fun _ => List.Forall₂.nil⟩
  | cons count counts ih =>
    cases rows with
    | nil => simp at hrows
    | cons row rows =>
      rw [List.length_cons, List.range'_succ, List.map_cons, List.cons.injEq] at hrows
      obtain ⟨rfl, hrows⟩ := hrows
      rw [List.zip_cons_cons, writeCounts] at h
      split at h
      · next hzero =>
        obtain ⟨block, hmodel, hblock, hterms⟩ := ih hrows hfresh.succ h
        refine ⟨block, hmodel, hblock, fun hok => ?_⟩
        rw [Pattern.ofCountsFrom, if_neg (by omega)]
        exact hterms hok
      · next hpos =>
        rcases hadd : problem.addCoefficient Recorder.engine row.asConstraint handle.asVariable
          (Quantity.ofInt count) with ⟨middle, answer⟩
        rw [hadd] at h
        rcases Recorder.addCount_cases hfresh.isAt hadd with
          ⟨fault, rfl, hsame⟩ | ⟨rfl, amount, hreal, hmiddle⟩
        · obtain ⟨rfl, rfl⟩ := Prod.mk.inj h
          exact ⟨[], by simp [hsame], by simp, fun hok => by cases hok⟩
        · obtain ⟨block, hmodel, hblock, hterms⟩ :=
            ih hrows (by rw [hmiddle]; exact hfresh.append amount) h
          refine ⟨⟨.int row.index, .int handle.index, amount⟩ :: block, ?_, ?_, fun hok => ?_⟩
          · rw [hmodel, hmiddle, List.append_assoc]
            rfl
          · exact List.forall_mem_cons.mpr ⟨rfl, hblock⟩
          · rw [Pattern.ofCountsFrom, if_pos (by omega)]
            exact List.Forall₂.cons ⟨rfl, rfl, hreal⟩ (hterms hok)

/-- Whether the model that an engine has recorded is in step with some columns and their handles. -/
structure InStep (problem : Problem (Recorder Datum)) (columns : List (Column Datum))
    (handles : List Handle) : Prop where
  length_vars : problem.engine.model.vars.length = problem.vars.length
  column_lt : ∀ entry ∈ problem.engine.model.entries,
    ∃ index < problem.engine.model.vars.length, entry.column = .int index
  holds : List.Forall₂ problem.engine.model.Holds columns handles

namespace InStep

variable {problem after : Problem (Recorder Datum)} {columns : List (Column Datum)}
  {handles : List Handle} {handle : Handle}

/-- A model with one more variable and its entries is in step with the columns. -/
theorem of_extended (h : InStep problem columns handles) {added : Variable Datum}
    {block : List (Entry Datum)} (hvars : after.vars = problem.vars ++ [handle])
    (hmodel : after.engine.model = problem.engine.model.extended added block)
    (hblock : ∀ entry ∈ block, entry.column = .int problem.engine.model.vars.length) :
    InStep after columns handles := by
  refine ⟨?_, ?_, ?_⟩
  · simp only [hmodel, Model.extended, hvars, List.length_append, h.length_vars]
    rfl
  · simp only [hmodel, Model.extended, List.length_append, List.length_singleton]
    intro entry hentry
    rcases List.mem_append.mp hentry with hold | hnew
    · obtain ⟨index, hlt, hcolumn⟩ := h.column_lt entry hold
      exact ⟨index, by omega, hcolumn⟩
    · exact ⟨_, Nat.lt_succ_self _, hblock entry hnew⟩
  · rw [hmodel]
    exact h.holds.imp fun _ _ hholds => hholds.extended hblock

/-- A model that is refitted is in step with the columns. -/
theorem of_refits (h : InStep problem columns handles) (hvars : after.vars = problem.vars)
    (hrefits : problem.engine.model.Refits after.engine.model) : InStep after columns handles where
  length_vars := by rw [hrefits.length_vars, h.length_vars, hvars]
  column_lt := by
    rw [hrefits.entries_eq, hrefits.length_vars]
    exact h.column_lt
  holds := h.holds.imp fun _ _ hholds => hholds.refits hrefits

/-- A column that stands in the model may be put beside those that are in step. -/
theorem concat (h : InStep problem columns handles) {column : Column Datum}
    (hholds : problem.engine.model.Holds column handle) :
    InStep problem (columns ++ [column]) (handles ++ [handle]) :=
  { h with holds := List.rel_append h.holds (.cons hholds .nil) }

end InStep

/-- Whether a cover has its books in order and is in step with the model of its engine. -/
structure Synced (cover : Cover (Recorder Datum) Datum) : Prop where
  books : cover.Books
  inStep : InStep cover.problem cover.pool.columns cover.handles

namespace Synced

variable {cover : Cover (Recorder Datum) Datum} {column : Column Datum}

/-- The variable and the entries of a column extend the model. -/
theorem exists_extended (h : cover.Synced) (hlength : column.counts.length = cover.numItems)
    {title : Datum} {extended written : Problem (Recorder Datum)} {handle : Handle}
    {outcome : Except Fault Unit}
    (hadded : cover.problem.addVariable Recorder.engine (variableOf column title) =
      .ok (extended, handle))
    (hwritten : writeCounts Recorder.engine handle (column.counts.zip cover.rows) extended =
      (written, outcome)) :
    handle = ⟨cover.problem.engine.model.vars.length, title⟩ ∧
      written.vars = cover.problem.vars ++ [handle] ∧
      ∃ block, written.engine.model =
          cover.problem.engine.model.extended (variableOf column title) block ∧
        (∀ entry ∈ block, entry.column = .int cover.problem.engine.model.vars.length) ∧
        (outcome = .ok () → List.Forall₂ (IsTerm handle.index) block column.pattern) := by
  obtain ⟨hhandle, hvars, hadd⟩ := Recorder.of_addVariable hadded
  rw [← h.inStep.length_vars] at hhandle
  have hrows : cover.rows.map (·.index) = List.range' 0 column.counts.length := by
    rw [h.books.index_rows, hlength, List.range_eq_range']
  have hfresh : IsFresh extended.engine.model.entries handle.index 0 := by
    rw [hadd]
    intro entry hentry
    obtain ⟨index, hlt, hcolumn⟩ := h.inStep.column_lt entry hentry
    refine ⟨index, hcolumn, fun hsame => ?_⟩
    rw [hhandle] at hsame
    exact absurd hsame (Nat.ne_of_lt hlt)
  obtain ⟨block, hmodel, hblock, hterms⟩ := exists_writeCounts hrows hfresh hwritten
  have hkept : written.vars = extended.vars := by
    have hkeeps := keepsBooks_writeCounts Recorder.engine handle (column.counts.zip cover.rows)
      extended
    rw [hwritten] at hkeeps
    obtain ⟨_, _, _, rfl⟩ := hkeeps
    rfl
  rw [hhandle] at hblock
  refine ⟨hhandle, hkept.trans hvars, block, ?_, hblock, hterms⟩
  rw [hmodel, hadd]
  rfl

/-- Adding a column keeps a cover in step with the model, also where the engine fails. -/
theorem addColumn (h : cover.Synced) (hid : column.HasIntegerId) (name : Datum) :
    (cover.addColumn Recorder.engine column name).1.Synced := by
  rcases h.books.addColumn_cases hid Recorder.engine name with
    ⟨fault, hsame⟩ | ⟨title, extended, handle, written, hcheck, hadded, hcases⟩
  · rw [hsame]
    exact h
  · obtain ⟨hlength, -⟩ := of_checkColumn hcheck
    rcases hcases with ⟨fault, hwritten, hsame, hbooks⟩ | ⟨nextId, -, hwritten, hsame, hbooks⟩
    · obtain ⟨-, hvars, block, hmodel, hblock, -⟩ := h.exists_extended hlength hadded hwritten
      rw [hsame]
      exact ⟨hbooks, h.inStep.of_extended hvars hmodel hblock⟩
    · obtain ⟨hhandle, hvars, block, hmodel, hblock, hterms⟩ :=
        h.exists_extended hlength hadded hwritten
      have hstands : (cover.problem.engine.model.extended
          ⟨handle.name, some Quantity.zero, none, column.cost, .flag false⟩ block).Holds
          column handle :=
        holds_extended (by rw [hhandle]) h.inStep.column_lt hblock (hterms rfl)
      -- a column is held by its cost and its counts, whatever its identifier is
      have hholds : written.engine.model.Holds { column with id := cover.idFor column } handle := by
        rw [hhandle] at hstands ⊢
        rw [hmodel]
        exact ⟨hstands.variable_eq, hstands.entries_eq⟩
      have hgrown := (h.inStep.of_extended hvars hmodel hblock).concat hholds
      rw [hsame]
      exact ⟨hbooks, { hgrown with }⟩

/-- A problem that keeps the books and refits the model keeps a cover in step with it. -/
theorem of_refits (h : cover.Synced) {problem : Problem (Recorder Datum)}
    (hkeeps : cover.problem.KeepsBooks problem)
    (hrefits : cover.problem.engine.model.Refits problem.engine.model) :
    Synced { cover with problem } := by
  have hbooks := h.books.of_keepsBooks hkeeps
  obtain ⟨engine, status, journal, rfl⟩ := hkeeps
  exact ⟨hbooks, h.inStep.of_refits rfl hrefits⟩

/-- Solving the relaxation keeps a cover in step with the model. -/
theorem solveRelaxation (h : cover.Synced) (tolerance : Datum) :
    (cover.solveRelaxation Recorder.engine tolerance).1.Synced := by
  obtain ⟨last, hsame⟩ := cover.exists_solveRelaxation Recorder.engine tolerance
  have hsolved := h.of_refits (cover.problem.keepsBooks_solve Recorder.engine)
    (.of_eq (Recorder.model_solve cover.problem))
  rw [hsame]
  exact ⟨{ hsolved.books with }, hsolved.inStep⟩

/-- Solving the integer restriction keeps a cover in step with the model. -/
theorem solveRestriction (h : cover.Synced) (tolerance : Datum) :
    (cover.solveRestriction Recorder.engine tolerance).1.Synced := by
  have hset := keepsBooks_setIntegers (Recorder.engine (α := Datum)) true cover.handles cover.problem
  have hrefits := Recorder.refits_setIntegers (α := Datum) true cover.handles cover.problem
  rcases cover.solveRestriction_cases Recorder.engine tolerance with hsame | hsame
  · rw [hsame]
    exact h.of_refits hset hrefits
  · rw [hsame]
    refine h.of_refits ((hset.trans (Problem.keepsBooks_solve Recorder.engine _)).trans
      (keepsBooks_setIntegers Recorder.engine false cover.handles _)) ?_
    exact (hrefits.trans (.of_eq (Recorder.model_solve _))).trans
      (Recorder.refits_setIntegers false cover.handles _)

/-- Allowing or forbidding changes of a row keeps a cover in step with the model. -/
theorem setModifiable (h : cover.Synced) {given : Reference} {modifiable : Datum}
    {problem : Problem (Recorder Datum)}
    (hset : cover.problem.setModifiable given modifiable = .ok problem) :
    Synced { cover with problem } := by
  have hbooks := h.books.setModifiable hset
  obtain ⟨_, -, hset⟩ := bind_eq_ok.mp hset
  obtain ⟨row, -, hset⟩ := bind_eq_ok.mp hset
  obtain rfl := Except.ok.inj hset
  exact ⟨hbooks, { h.inStep with }⟩

/-- Rows without terms leave the model in step. -/
theorem of_addRows {first : Nat} {items : List Item} {rows all : List Handle}
    {problem ruled : Problem (Recorder Datum)} (hstep : InStep problem [] [])
    (hadd : addRows Recorder.engine first items problem rows = ((ruled, all), .ok ())) :
    InStep ruled [] [] := by
  induction items generalizing first rows problem with
  | nil =>
    obtain ⟨hsame, -⟩ := Prod.mk.inj hadd
    rw [← (Prod.mk.inj hsame).1]
    exact hstep
  | cons item rest ih =>
    simp only [addRows] at hadd
    split at hadd
    · cases hadd
    · split at hadd
      · cases hadd
      · next extended handle hadded =>
        have hnext : InStep extended [] [] := by
          obtain ⟨-, -, checked, state, hstate, hchecked, rfl⟩ := Problem.of_addConstraint hadded
          rw [hchecked rfl] at hstate
          rw [← (Prod.mk.inj hstate).1]
          exact ⟨hstep.length_vars, hstep.column_lt, .nil⟩
        exact ih hnext hadd

/-- A cover that is built is in step with the model. -/
theorem build {recorder : Recorder Datum} {listener : Listener} {items : List Item} {name : Datum}
    {seeded : Bool} (hears : ∀ event, listener event = .ok ())
    (h : Cover.build Recorder.engine { engine := recorder, listener } items name seeded =
      (cover, .ok ())) : cover.Synced := by
  refine build_keeps (fun _ _ name hsynced => hsynced.addColumn (Or.inl rfl) name) h ?_
  intro created ruled rows hitems hcreated hrows
  have hempty : InStep created [] [] := by
    obtain ⟨state, hstate, rfl⟩ := Problem.of_create hcreated
    rw [← (Prod.mk.inj hstate).1]
    exact ⟨rfl, by simp [Problem.record], .nil⟩
  exact ⟨.of_addRows hears hitems hcreated hrows, of_addRows hempty hrows⟩

end Synced

/-- What may be done to a cover over an engine that records. The last case is what happens to the
engine from outside: its answers change, and the rows on which it fails. -/
inductive Operation where
  | addColumn (column : Column Datum) (name : Datum)
  | setModifiable (given : Reference) (modifiable : Datum)
  | solveRelaxation (tolerance : Datum)
  | solveRestriction (tolerance : Datum)
  | adjust (script : List (Scene Datum)) (primal : (column : Datum) → Except Fault Datum)
      (refuses : (row : Datum) → Except Fault Bool)

/-- The cover after an operation, which may have failed. -/
def perform (cover : Cover (Recorder Datum) Datum) : Operation → Cover (Recorder Datum) Datum
  | .addColumn column name => (cover.addColumn Recorder.engine column name).1
  | .setModifiable given modifiable =>
    match cover.problem.setModifiable given modifiable with
    | .ok problem => { cover with problem }
    | .error _ => cover
  | .solveRelaxation tolerance => (cover.solveRelaxation Recorder.engine tolerance).1
  | .solveRestriction tolerance => (cover.solveRestriction Recorder.engine tolerance).1
  | .adjust script primal refuses =>
    { cover with problem := { cover.problem with
        engine := { cover.problem.engine with script, primal, refuses } } }

/-- Whether an operation adds no column but one without an identifier or with an integer for it. -/
def Operation.HasIntegerId : Operation → Prop
  | .addColumn column _ => column.HasIntegerId
  | _ => True

variable {cover start : Cover (Recorder Datum) Datum}

/-- An operation keeps a cover in step with the model. -/
theorem Synced.perform (h : cover.Synced) {operation : Operation} (hid : operation.HasIntegerId) :
    (cover.perform operation).Synced := by
  cases operation with
  | addColumn column name => exact h.addColumn hid name
  | setModifiable given modifiable =>
    rw [Cover.perform]
    split
    · next problem hset => exact h.setModifiable hset
    · exact h
  | solveRelaxation tolerance => exact h.solveRelaxation tolerance
  | solveRestriction tolerance => exact h.solveRestriction tolerance
  | adjust script primal refuses =>
    exact h.of_refits ⟨_, cover.problem.status, cover.problem.journal, rfl⟩ (.of_eq rfl)

/-- Operations one after the other keep a cover in step with the model. -/
theorem Synced.foldl_perform (h : start.Synced) {operations : List Operation}
    (hids : ∀ operation ∈ operations, operation.HasIntegerId) :
    (operations.foldl Cover.perform start).Synced := by
  induction operations generalizing start with
  | nil => exact h
  | cons operation rest ih =>
    obtain ⟨hid, hrest⟩ := List.forall_mem_cons.mp hids
    exact ih (h.perform hid) hrest

/-- Whether each column of a cover is the variable of the model under its handle, and no column is
there twice. -/
structure IsAligned (cover : Cover (Recorder Datum) Datum) : Prop where
  length_eq : cover.pool.columns.length = cover.handles.length
  increasing : cover.handles.Pairwise fun left right => left.index < right.index
  holds : List.Forall₂ cover.problem.engine.model.Holds cover.pool.columns cover.handles
  distinct_ids : ∃ ids : List Int, cover.pool.columns.map (·.id) = ids.map Datum.int ∧ ids.Nodup
  distinct : cover.pool.columns.Pairwise fun left right => left.equal right = false

/-- A cover that is in step with the model is aligned with it. -/
theorem Synced.isAligned (h : cover.Synced) : cover.IsAligned where
  length_eq := h.books.length_handles.symm
  increasing := h.books.increasing
  holds := h.inStep.holds
  distinct_ids := h.books.numbered.exists_ids
  distinct := h.books.distinct.imp Column.equal_of_same

/-- However a cover that was built over a recording engine is used, and wherever the engine fails in
the middle of a column: each column of the pool is the variable of the model under its handle, the
indices of the handles increase, and no identifier and no column occurs twice. A column that is not
added leaves the pool and the handles as they were, and one that is refused by a check leaves
everything as it was. -/
theorem aligned_after_operations {recorder : Recorder Datum} {listener : Listener}
    {items : List Item} {name : Datum} {seeded : Bool} (hears : ∀ event, listener event = .ok ())
    (hbuild : Cover.build Recorder.engine { engine := recorder, listener } items name seeded =
      (start, .ok ()))
    {operations : List Operation} (hids : ∀ operation ∈ operations, operation.HasIntegerId)
    (hcover : operations.foldl perform start = cover) :
    cover.IsAligned ∧
      ∀ (column : Column Datum) (name : Datum) (fault : Fault), column.HasIntegerId →
        (cover.addColumn Recorder.engine column name).2 = .error fault →
          (cover.addColumn Recorder.engine column name).1.pool = cover.pool ∧
          (cover.addColumn Recorder.engine column name).1.handles = cover.handles ∧
          ∀ refusal, cover.checkColumn column = .error refusal →
            cover.addColumn Recorder.engine column name = (cover, .error refusal) := by
  have hsynced := (Synced.build hears hbuild).foldl_perform hids
  rw [hcover] at hsynced
  refine ⟨hsynced.isAligned, fun column name fault hid herror => ?_⟩
  obtain ⟨hpool, hhandles⟩ := hsynced.books.of_addColumn_error hid herror
  refine ⟨hpool, hhandles, fun refusal hcheck => ?_⟩
  rw [Cover.addColumn, hcheck]

/-- A recorder whose solves are all optimal. -/
def willing : Recorder Datum where
  script := [{ status := .optimal, objective := .ok none, dual := fun _ => .ok (.int 1) }]
  primal := usualValue

/-- A cover of two items with a column for each of them. -/
def pairCover : Cover (Recorder Datum) Datum × Except Fault Unit :=
  Cover.build Recorder.engine { engine := willing }
    [⟨4, 2, .null, by decide⟩, ⟨6, 1, .null, by decide⟩] (.text "pair") true

/-- A column whose second coefficient is rejected, one that is taken, one that uses a fixed row, and
an integer solve. -/
def roughOperations : List Operation :=
  [.adjust willing.script usualValue fun row => .ok (row.eq (.int 1)),
    .addColumn { counts := [1, 2], cost := Quantity.one } .null,
    .adjust willing.script usualValue fun _ => .ok false,
    .addColumn { counts := [2, 0], cost := Quantity.one } .null,
    .setModifiable (.ofConstraint (.int 1) .null) (.flag false),
    .addColumn { counts := [0, 3], cost := Quantity.one, id := .int 9 } .null,
    .solveRestriction (.int 0)]

/-- The rejected coefficient leaves a variable behind that belongs to no column, and the columns stay
aligned with the model. -/
theorem aligned_after_rejection :
    ∃ start cover : Cover (Recorder Datum) Datum, pairCover = (start, .ok ()) ∧
      roughOperations.foldl perform start = cover ∧ cover.handles.map (·.index) = [0, 1, 3] ∧
      cover.problem.engine.model.entries.length = 4 ∧ cover.IsAligned := by
  have hok : pairCover.2.toOption = some () := by decide +kernel
  have hindices : (roughOperations.foldl perform pairCover.1).handles.map (·.index) = [0, 1, 3] := by
    decide +kernel
  have hentries :
      (roughOperations.foldl perform pairCover.1).problem.engine.model.entries.length = 4 := by
    decide +kernel
  rcases h : pairCover with ⟨start, fault | done⟩
  · rw [h] at hok
    cases hok
  · simp only [h] at hindices hentries
    refine ⟨start, _, rfl, rfl, hindices, hentries, ?_⟩
    have hids : ∀ operation ∈ roughOperations, operation.HasIntegerId := by
      simp [roughOperations, Operation.HasIntegerId, Column.HasIntegerId]
    rw [pairCover] at h
    exact (aligned_after_operations (fun _ => rfl) h hids rfl).1

end Cover

end PatternCovering
