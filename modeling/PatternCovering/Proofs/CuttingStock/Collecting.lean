import PatternCovering.CuttingStock.Solution
import PatternCovering.Proofs.Cover.Obliging
import PatternCovering.Proofs.Cover.Values
import PatternCovering.Proofs.CuttingStock.Patterns
import PatternCovering.Proofs.Generation.Points

/-!
# Collecting patterns

Over exact arithmetic an offer that improves is never a column of the pool, if the duals are
feasible for the columns of the pool: these are worth at most their cost, and the offer is worth
more. Each round that does not end a run therefore collects another pattern of one roll, and of
these there are finitely many.
-/

namespace PatternCovering

variable {ε : Type}

/-- Whether the relaxation of a cover is solved to the optimum, with duals under which no column of
the pool is worth more than its cost. -/
def Cover.DuallyFeasible (engine : Engine ε Rat) (cover : Cover ε Rat) : Prop :=
  ∃ objective duals, cover.Reports engine objective duals ∧
    ∀ column ∈ cover.pool.columns, weigh duals column.counts ≤ column.cost

/-- Whether every relaxation of a run is solved to the optimum, with duals that are feasible for the
columns that are known then. -/
def Generation.DuallyFeasible {σ : Type} (generation : Generation ε σ Rat)
    (first : Generation.Progress ε σ Rat) : Prop :=
  ∀ progress, generation.Reaches first progress → progress.cover.DuallyFeasible generation.engine

/-- Events are told to a listener who takes them all. -/
theorem Generation.exists_tell (progress : Generation.Progress ε Unit Rat) {cover : Cover ε Rat}
    (hears : ∀ event, cover.problem.listener event = .ok ()) (events : List Event) :
    ∃ told, Progress.tell { progress with cover } events =
        ({ progress with cover := told }, .ok ()) ∧
      cover.Noted told := by
  have hheard : ∃ after, Progress.tell { progress with cover } events = (after, .ok ()) := by
    induction events generalizing cover with
    | nil => exact ⟨{ progress with cover }, rfl⟩
    | cons event rest ih =>
      simp only [Progress.tell, Cover.tell, Problem.tell, hears]
      exact ih hears
  obtain ⟨after, hafter⟩ := hheard
  obtain ⟨told, hnoted, rfl⟩ := of_tell hafter
  exact ⟨told, hafter, hnoted⟩

namespace CuttingStock

variable {stock : CuttingStock} {engine : Engine ε Rat} {Has : ε → Nat → Nat → Prop}
  {cover : Cover ε Rat} {column : Column Rat}

/-- What the covers of a run over the patterns of an instance have in common: their columns are
patterns that cut an item, at the cost of one, and numbered in order. -/
structure Collects (stock : CuttingStock) (Has : ε → Nat → Nat → Prop) (cover : Cover ε Rat) :
    Prop where
  served : cover.Served Has
  items_eq : cover.items = stock.items
  cost_eq : ∀ column ∈ cover.pool.columns, column.cost = 1
  pattern : ∀ column ∈ cover.pool.columns, IsPattern stock.widths stock.capacity column.counts
  used : ∀ column ∈ cover.pool.columns, column.counts ≠ List.replicate stock.numItems 0
  nextId_eq : cover.pool.nextId = .int cover.pool.columns.length

/-- Whether a cover has so many columns that the number of the next one is too long to be written,
and still fewer than there are patterns. -/
structure IsFull (stock : CuttingStock) (cover : Cover ε Rat) : Prop where
  length_ge : 10 ^ Decimal.mostIntegerDigits ≤ cover.pool.columns.length
  length_lt : cover.pool.columns.length < stock.numPatterns

namespace Collects

/-- The columns are fewer than the patterns. -/
theorem length_lt (h : stock.Collects Has cover) :
    cover.pool.columns.length < stock.numPatterns := by
  have hnodup : (cover.pool.columns.map (·.counts)).Nodup := by
    rw [List.Nodup, List.pairwise_map]
    refine h.served.books.distinct.imp_of_mem ?_
    intro left right hleft hright hdiffer heq
    have hcosts : Quantity.same left.cost right.cost = true :=
      decide_eq_true ((h.cost_eq left hleft).trans (h.cost_eq right hright).symm)
    rw [Column.same, heq, beq_self_eq_true, Bool.true_and, hcosts] at hdiffer
    cases hdiffer
  rw [← List.length_map (f := fun column : Column Rat => column.counts)]
  exact length_lt_numPatterns hnodup (List.forall_mem_map.mpr h.pattern)
    (List.forall_mem_map.mpr h.used)

/-- A new pattern that cuts an item is accepted. -/
theorem checkColumn_eq_ok (h : stock.Collects Has cover) (hid : column.id = .null)
    (hpattern : IsPattern stock.widths stock.capacity column.counts)
    (hnew : ∀ known ∈ cover.pool.columns, known.counts ≠ column.counts) :
    cover.checkColumn column = .ok () := by
  refine h.served.checkColumn_eq_ok hid ?_ fun known hknown => ?_
  · rw [hpattern.1, length_widths, Cover.numItems, h.items_eq]
    rfl
  · rw [Column.same, beq_eq_false_iff_ne.mpr (hnew known hknown), Bool.false_and]

/-- A new pattern that cuts an item is collected, if its variable can be named. -/
theorem addColumn (h : stock.Collects Has cover) (hobliges : engine.Obliges Has)
    (hid : column.id = .null) (hcost : column.cost = 1)
    (hpattern : IsPattern stock.widths stock.capacity column.counts)
    (hused : column.counts ≠ List.replicate stock.numItems 0)
    (hnew : ∀ known ∈ cover.pool.columns, known.counts ≠ column.counts) {name title : Datum}
    (htitle : Cover.variableName (.int cover.pool.columns.length) name = .ok title) :
    ∃ grown stored, cover.addColumn engine column name = (grown, .ok stored) ∧
      stock.Collects Has grown ∧ grown.pool.columns = cover.pool.columns ++ [stored] ∧
      stored.counts = column.counts := by
  have hidFor : cover.idFor column = .int cover.pool.columns.length := by
    rw [Cover.idFor, hid, h.nextId_eq]
  have hcheck := h.checkColumn_eq_ok hid hpattern hnew
  obtain ⟨problem, nextId, handle, hnext, hadd, hserved⟩ :=
    h.served.addColumn hobliges (Or.inl hid) hcheck (hidFor ▸ htitle)
  rw [hidFor, h.nextId_eq, ColumnPool.idAfter_int] at hnext
  obtain rfl := Except.ok.inj hnext
  refine ⟨_, _, hadd, ?_, rfl, rfl⟩
  have hall : ∀ {P : Column Rat → Prop}, (∀ known ∈ cover.pool.columns, P known) →
      P { column with id := cover.idFor column } → ∀ known ∈ (cover.grown problem
        { column with id := cover.idFor column } (.int (max cover.pool.columns.length
          (cover.pool.columns.length + 1))) handle).pool.columns, P known := by
    intro P hknown hlast known hmem
    rcases List.mem_append.mp hmem with hmem | hmem
    · exact hknown known hmem
    · rw [List.mem_singleton.mp hmem]
      exact hlast
  exact {
    served := hserved
    items_eq := h.items_eq
    cost_eq := hall h.cost_eq hcost
    pattern := hall h.pattern hpattern
    used := hall h.used hused
    nextId_eq := by
      simp only [Cover.grown, List.length_append, List.length_singleton]
      congr 1
      omega }

/-- Entries in the journal change nothing that is collected. -/
theorem noted (h : stock.Collects Has cover) {after : Cover ε Rat} (hnoted : cover.Noted after) :
    stock.Collects Has after := by
  have hserved := h.served.noted hnoted
  obtain ⟨journal, rfl⟩ := hnoted
  exact { h with served := hserved }

/-- Columns of single pieces are collected one after the other. -/
theorem seed (hobliges : engine.Obliges Has) (first count : Nat) (h : stock.Collects Has cover)
    (hlength : cover.pool.columns.length = first) (hbound : first + count ≤ stock.numItems)
    (hsingle : ∀ column ∈ cover.pool.columns, ∃ item < first,
      column.counts = (Column.single stock.numItems item : Column Rat).counts) :
    ∃ seeded, cover.seed engine (List.range' first count) = (seeded, .ok ()) ∧
      stock.Collects Has seeded ∧ seeded.pool.columns.length = first + count := by
  induction count generalizing cover first with
  | zero => exact ⟨cover, rfl, h, hlength⟩
  | succ count ih =>
    have hitems : cover.numItems = stock.numItems := by rw [Cover.numItems, h.items_eq]; rfl
    have hlt : first < stock.numItems := by omega
    have htitle : Cover.variableName (.int cover.pool.columns.length) (.text s!"init_{first}") =
        .ok (.text s!"init_{first}") := by
      rw [Cover.variableName, if_pos]
      simp [Datum.truthy]
    have hnew : ∀ known ∈ cover.pool.columns,
        known.counts ≠ (Column.single stock.numItems first : Column Rat).counts := by
      intro known hknown
      obtain ⟨item, hitem, hcounts⟩ := hsingle known hknown
      rw [hcounts]
      exact single_ne_single hlt (Nat.ne_of_gt hitem)
    obtain ⟨grown, stored, hadd, hgrown, hcolumns, hstored⟩ :=
      h.addColumn hobliges rfl rfl (isPattern_single hlt) (single_ne_zero hlt) hnew htitle
    have hmore : grown.pool.columns.length = first + 1 := by
      rw [hcolumns, List.length_append, hlength]
      rfl
    have hsingles : ∀ column ∈ grown.pool.columns, ∃ item < first + 1,
        column.counts = (Column.single stock.numItems item : Column Rat).counts := by
      rw [hcolumns]
      intro column hcolumn
      rcases List.mem_append.mp hcolumn with hcolumn | hcolumn
      · obtain ⟨item, hitem, hcounts⟩ := hsingle column hcolumn
        exact ⟨item, Nat.lt_succ_of_lt hitem, hcounts⟩
      · rw [List.mem_singleton.mp hcolumn]
        exact ⟨first, Nat.lt_succ_self first, hstored⟩
    obtain ⟨seeded, hseed, hcollects, htotal⟩ :=
      ih (first + 1) hgrown hmore (by omega) hsingles
    refine ⟨seeded, ?_, hcollects, by omega⟩
    rw [List.range'_succ, Cover.seed, hitems, hadd]
    exact hseed

end Collects

/-- A cover with a column for each item is built. -/
theorem exists_build (hobliges : engine.Obliges Has) (hitems : 0 < stock.numItems) (state : ε)
    {listener : Listener} (hears : ∀ event, listener event = .ok ()) :
    ∃ cover, Cover.build engine { engine := state, listener } stock.items stock.problemName true =
        (cover, .ok ()) ∧
      stock.Collects Has cover ∧ cover.pool.columns.length = stock.numItems := by
  have hsome : stock.items ≠ [] := List.ne_nil_of_length_pos hitems
  have hname : stock.problemName ≠ .null := by
    rw [problemName]
    split
    · next htruthy =>
      intro hnull
      rw [hnull] at htruthy
      cases htruthy
    · simp
  obtain ⟨created, ruled, rows, hcreated, hrows, hserved⟩ :=
    Cover.exists_rows hobliges state hears hsome hname
  have hempty : stock.Collects Has { items := stock.items, problem := ruled, rows } :=
    ⟨hserved, rfl, by simp, by simp, by simp, rfl⟩
  obtain ⟨seeded, hseed, hcollects, hlength⟩ :=
    hempty.seed hobliges 0 stock.numItems rfl (by simp) (by simp)
  refine ⟨seeded, ?_, hcollects, by rw [hlength, Nat.zero_add]⟩
  have hnone : stock.items.isEmpty = false := by simpa using hsome
  simp only [Cover.build, hnone, hcreated, hrows, List.range_eq_range']
  exact hseed

/-- Whether an oracle answers all duals with a best pattern. -/
def Serves (stock : CuttingStock) (oracle : Oracle Unit Rat) : Prop :=
  ∀ duals : List Rat, duals.length = stock.numItems →
    ∃ events offer, oracle.price () duals = ((), events, .ok offer) ∧ offer.column.id = .null ∧
      OffersBest stock.widths stock.capacity 1 duals offer

variable {generation : Generation ε Unit Rat} {progress : Generation.Progress ε Unit Rat}
  {duals : List Rat} {offer : Offer Rat}

/-- An offer that improves cuts an item, and its pattern is not among those that are worth at most
their cost. -/
theorem Collects.ne_of_improving (h : stock.Collects Has cover) {tolerance : Rat}
    (htolerance : 0 ≤ tolerance) (hbest : OffersBest stock.widths stock.capacity 1 duals offer)
    (hfeasible : ∀ column ∈ cover.pool.columns, weigh duals column.counts ≤ column.cost)
    (himproving : offer.reducedCost < -tolerance) :
    offer.column.counts ≠ List.replicate stock.numItems 0 ∧
      ∀ known ∈ cover.pool.columns, known.counts ≠ offer.column.counts := by
  -- an improving offer is worth more than its cost, which neither the empty pattern nor a column
  -- of the pool is
  have hworth : 1 < weigh duals offer.column.counts := by
    have hreduced := hbest.reducedCost_eq
    linarith
  refine ⟨fun hzero => ?_, fun known hknown heq => ?_⟩
  · rw [hzero, weigh_replicate_zero] at hworth
    linarith
  · have hle := hfeasible known hknown
    rw [h.cost_eq known hknown, heq] at hle
    linarith

/-- What becomes of a best offer: it does not improve, or it is collected, or its number is too long
to be written. -/
theorem Collects.accept_cases (h : stock.Collects Has cover)
    (hobliges : generation.engine.Obliges Has) (htolerance : 0 ≤ generation.settings.tolerance)
    (hid : offer.column.id = .null) (hbest : OffersBest stock.widths stock.capacity 1 duals offer)
    (hfeasible : ∀ column ∈ cover.pool.columns, weigh duals column.counts ≤ column.cost) :
    generation.accept cover offer = (cover, .ok 0) ∨
    (∃ grown, generation.accept cover offer = (grown, .ok 1) ∧ stock.Collects Has grown ∧
      grown.pool.columns.length = cover.pool.columns.length + 1) ∨
    (generation.accept cover offer = (cover, .error .integerTooLong) ∧ stock.IsFull cover) := by
  have hdecided : offer.isImproving generation.settings.tolerance =
      .ok (decide (offer.reducedCost < -generation.settings.tolerance)) := rfl
  by_cases himproving : offer.reducedCost < -generation.settings.tolerance
  · obtain ⟨hused, hnew⟩ := h.ne_of_improving htolerance hbest hfeasible himproving
    have hcheck := h.checkColumn_eq_ok hid hbest.pattern hnew
    have haccepted : generation.isAccepted cover offer = .ok true := by
      obtain ⟨-, hknown, -⟩ := Cover.of_checkColumn hcheck
      simp only [Generation.isAccepted, hdecided, decide_eq_true himproving, hknown, bind,
        Except.bind]
      rfl
    rcases Cover.variableName_cases cover.pool.columns.length with ⟨title, htitle⟩ | ⟨hlong, htitle⟩
    · obtain ⟨grown, stored, hadd, hgrown, hcolumns, -⟩ :=
        h.addColumn hobliges hid hbest.cost_eq hbest.pattern hused hnew htitle
      refine Or.inr (Or.inl ⟨grown, ?_, hgrown, by rw [hcolumns, List.length_append]; rfl⟩)
      simp only [Generation.accept, haccepted, hadd]
    · refine Or.inr (Or.inr ⟨?_, hlong, h.length_lt⟩)
      have hidFor : cover.idFor offer.column = .int cover.pool.columns.length := by
        rw [Cover.idFor, hid, h.nextId_eq]
      simp only [Generation.accept, haccepted, Cover.addColumn, hcheck, hidFor, htitle, bind,
        Except.bind]
  · left
    simp only [Generation.accept, Generation.isAccepted, hdecided, decide_eq_false himproving, bind,
      Except.bind]
    rfl

/-- There is a dual for each item. -/
theorem Collects.length_duals (h : stock.Collects Has cover) {objective : Option Rat}
    (hreports : cover.Reports engine objective duals) : duals.length = stock.numItems := by
  obtain ⟨_, -, -, hduals⟩ := hreports
  have hrows := congrArg List.length h.served.books.index_rows
  rw [List.length_map, List.length_range, Cover.numItems, h.items_eq] at hrows
  exact (length_of_mapM_eq_ok hduals).trans hrows

/-- What the part of a round that can fail comes to: the relaxation is solved, its duals are priced,
and at most one column is collected. -/
theorem Collects.advance_cases (h : stock.Collects Has progress.cover)
    (hobliges : generation.engine.Obliges Has) (hserves : stock.Serves generation.oracle)
    (htolerance : 0 ≤ generation.settings.tolerance)
    (hdual : progress.cover.DuallyFeasible generation.engine) :
    (∃ after solution offer added,
      generation.advance progress = (after, .ok (solution, offer, added)) ∧ added ≤ 1 ∧
      after.history = progress.history ∧ stock.Collects Has after.cover ∧
      after.cover.pool.columns.length = progress.cover.pool.columns.length + added) ∨
    (∃ after, generation.advance progress = (after, .error .integerTooLong) ∧
      stock.IsFull after.cover) := by
  obtain ⟨objective, duals, hreports, hfeasible⟩ := hdual
  obtain ⟨relaxed, solution, hrelaxed, rfl, hserved, hpool, hitems⟩ :=
    h.served.solveRelaxation hobliges hreports generation.feasibility
  have hcollects : stock.Collects Has relaxed := by
    refine ⟨hserved, hitems.trans h.items_eq, ?_, ?_, ?_, ?_⟩ <;> rw [hpool]
    exacts [h.cost_eq, h.pattern, h.used, h.nextId_eq]
  obtain ⟨events, offer, hprice, hid, hbest⟩ := hserves solution.duals (h.length_duals hreports)
  obtain ⟨asked, htell, hnoted⟩ := Generation.exists_tell
    { progress with solution := some solution } hserved.books.hears events
  have hasked := hcollects.noted hnoted
  rw [← hpool, ← hnoted.pool_eq] at hfeasible
  have hsame : asked.pool.columns.length = progress.cover.pool.columns.length := by
    rw [hnoted.pool_eq, hpool]
  rcases hasked.accept_cases hobliges htolerance hid hbest hfeasible with
    haccept | ⟨grown, haccept, hgrown, hcolumns⟩ | ⟨haccept, hfull⟩
  · refine Or.inl ⟨{ progress with cover := asked, solution := some solution }, solution, offer, 0,
      ?_, Nat.zero_le 1, rfl, hasked, hsame⟩
    simp only [Generation.advance, hrelaxed, hprice, htell, haccept]
  · refine Or.inl ⟨{ progress with cover := grown, solution := some solution }, solution, offer, 1,
      ?_, Nat.le_refl 1, rfl, hgrown, hcolumns.trans (by rw [hsame])⟩
    simp only [Generation.advance, hrelaxed, hprice, htell, haccept]
  · refine Or.inr ⟨{ progress with cover := asked, solution := some solution }, ?_, hfull⟩
    simp only [Generation.advance, hrelaxed, hprice, htell, haccept]

/-- What a round without observers comes to: it goes on with one more column, or it ends the run as
optimal. -/
theorem Collects.round_cases (h : stock.Collects Has progress.cover)
    (hobliges : generation.engine.Obliges Has) (hserves : stock.Serves generation.oracle)
    (htolerance : 0 ≤ generation.settings.tolerance) (halone : generation.observers = [])
    (hdual : progress.cover.DuallyFeasible generation.engine) :
    (∃ after result, generation.round progress = (after, .ok result) ∧
      stock.Collects Has after.cover ∧ after.history.length = progress.history.length + 1 ∧
      ((result = none ∧
          after.cover.pool.columns.length = progress.cover.pool.columns.length + 1) ∨
        (result = some .optimal ∧
          after.cover.pool.columns.length = progress.cover.pool.columns.length))) ∨
    (∃ after, generation.round progress = (after, .error .integerTooLong) ∧
      stock.IsFull after.cover) := by
  rcases h.advance_cases hobliges hserves htolerance hdual with
    ⟨advanced, solution, offer, added, hadvance, hadded, hhistory, hcollects, hcolumns⟩ |
    ⟨after, hadvance, hfull⟩
  · -- the round is entered into the history, and reported to a listener who takes every event
    left
    generalize hdone : (⟨advanced.history.length + 1, solution.objective, offer.reducedCost, added,
      advanced.cover.numColumns⟩ : Round Rat) = done
    have hlength : (advanced.history ++ [done]).length = progress.history.length + 1 := by
      rw [List.length_append, hhistory]
      rfl
    obtain ⟨reported, htold, hnoted⟩ := Generation.exists_tell
      { advanced with history := advanced.history ++ [done] } hcollects.served.books.hears
      [.roundDone generation.settings.verbose.truthy (advanced.history.length + 1)
        (reportOption solution.objective) (Quantity.report offer.reducedCost) added
        advanced.cover.numColumns]
    have hreported := hcollects.noted hnoted
    rcases Nat.le_one_iff_eq_zero_or_eq_one.mp hadded with rfl | rfl
    · obtain ⟨closed, hclosed, hlast⟩ := Generation.exists_tell
        { advanced with history := advanced.history ++ [done] } hreported.served.books.hears
        [.converged (advanced.history.length + 1) (reportOption solution.objective)]
      refine ⟨{ advanced with cover := closed, history := advanced.history ++ [done] },
        some .optimal, ?_, hreported.noted hlast, hlength, Or.inr ⟨rfl, ?_⟩⟩
      · simp only [Generation.round, hadvance, hdone, htold, Generation.Progress.close, hclosed]
        rfl
      · rw [hlast.pool_eq, hnoted.pool_eq]
        exact hcolumns
    · refine ⟨{ advanced with cover := reported, history := advanced.history ++ [done] }, none, ?_,
        hreported, hlength, Or.inl ⟨rfl, ?_⟩⟩
      · simp only [Generation.round, hadvance, hdone, htold, Generation.observe, halone,
          Generation.consult, List.append_nil]
        rfl
      · rw [hnoted.pool_eq]
        exact hcolumns
  · refine Or.inr ⟨after, ?_, hfull⟩
    simp only [Generation.round, hadvance]

/-- What a run of rounds comes to: it ends as optimal, or it has taken all of its rounds; and each of
its rounds but the last has added a pattern. -/
theorem Collects.loop_cases (hobliges : generation.engine.Obliges Has)
    (hserves : stock.Serves generation.oracle) (htolerance : 0 ≤ generation.settings.tolerance)
    (halone : generation.observers = []) {first : Generation.Progress ε Unit Rat}
    (hdual : generation.DuallyFeasible first) (rounds : Nat)
    (h : stock.Collects Has progress.cover) (hreached : generation.Reaches first progress)
    (hcount : progress.cover.pool.columns.length = stock.numItems + progress.history.length) :
    (∃ after status, generation.loop rounds progress = (after, .ok status) ∧
      stock.Collects Has after.cover ∧
      stock.numItems + after.history.length ≤ stock.numPatterns ∧
      (status = .optimal ∨ status = .iterationLimit ∧
        after.history.length = progress.history.length + rounds ∧
        stock.numItems + after.history.length < stock.numPatterns)) ∨
    (∃ after, generation.loop rounds progress = (after, .error .integerTooLong) ∧
      stock.IsFull after.cover) := by
  -- there are as many columns beyond the seeded ones as rounds so far, and the columns stay fewer
  -- than the patterns: this bounds the rounds, whatever the budget
  induction rounds generalizing progress with
  | zero =>
    have hlt : stock.numItems + progress.history.length < stock.numPatterns := by
      rw [← hcount]
      exact h.length_lt
    obtain ⟨told, htold, hnoted⟩ := Generation.exists_tell progress h.served.books.hears
      [.budgetSpent (.number generation.settings.budget)]
    refine Or.inl ⟨{ progress with cover := told }, .iterationLimit, ?_, h.noted hnoted,
      Nat.le_of_lt hlt, Or.inr ⟨rfl, rfl, hlt⟩⟩
    rw [Generation.loop, Generation.Progress.close, htold]
    rfl
  | succ rounds ih =>
    rw [Generation.loop]
    rcases h.round_cases hobliges hserves htolerance halone (hdual progress hreached) with
      ⟨after, result, hround, hcollects, hhistory, ⟨rfl, hcolumns⟩ | ⟨rfl, hcolumns⟩⟩ |
      ⟨after, hround, hfull⟩
    · rw [hround]
      rcases ih hcollects (hreached.round hround) (by omega) with
        ⟨last, status, hloop, hlast, hbound, hended⟩ | hfull
      · refine Or.inl ⟨last, status, hloop, hlast, hbound, hended.imp_right ?_⟩
        rintro ⟨hstatus, htotal, hlt⟩
        exact ⟨hstatus, by omega, hlt⟩
      · exact Or.inr hfull
    · have hlt := h.length_lt
      rw [hround]
      exact Or.inl ⟨after, .optimal, rfl, hcollects, by omega, Or.inl rfl⟩
    · rw [hround]
      exact Or.inr ⟨after, rfl, hfull⟩

/-- The result of the rounds of a run can be put together. -/
theorem exists_outcomeOf (generation : Generation ε Unit Rat)
    (progress : Generation.Progress ε Unit Rat) (status : GenerationStatus) :
    ∃ outcome, generation.outcomeOf progress status = .ok outcome ∧
      outcome.rounds = progress.history.length ∧ outcome.converged = (status == .optimal) := by
  have hused : ∃ used, generation.usedColumns progress = .ok used := by
    rw [Generation.usedColumns]
    split
    · exact ⟨_, Cover.usedColumns_rat _ _ _⟩
    · exact ⟨[], rfl⟩
  obtain ⟨used, hused⟩ := hused
  simp only [Generation.outcomeOf, hused, bind, Except.bind]
  exact ⟨_, rfl, rfl, rfl⟩

/-- What the integer restriction after a run comes to: a result with the same rounds, or a solve that
did not end at an optimum. -/
theorem Collects.restrict_cases (h : stock.Collects Has progress.cover)
    (hobliges : generation.engine.Obliges Has) (outcome : Outcome Rat) :
    (∃ after restricted, generation.restrict progress outcome = (after, .ok restricted) ∧
      after.cover.Served Has ∧ restricted.rounds = outcome.rounds ∧
      restricted.converged = outcome.converged) ∨
    ∃ after status, status ≠ Status.optimal ∧
      generation.restrict progress outcome = (after, .error (.restrictionFailed status)) := by
  rcases h.served.solveRestriction hobliges generation.feasibility with
    ⟨cover, solution, hsolve, hserved⟩ | ⟨cover, status, hstatus, hsolve⟩
  · obtain ⟨used, hused⟩ : ∃ used, cover.activeColumns solution generation.feasibility = .ok used :=
      ⟨_, Cover.usedColumns_rat _ _ _⟩
    obtain ⟨told, htold, hnoted⟩ := Generation.exists_tell progress hserved.books.hears
      [.restrictionSolved (reportOption solution.objective)]
    refine Or.inl ⟨{ progress with cover := told },
      { outcome with integerObjective := solution.objective, integerColumns := used }, ?_,
      hserved.noted hnoted, rfl, rfl⟩
    simp only [Generation.restrict, hsolve, hused, htold]
    rfl
  · refine Or.inr ⟨{ progress with cover }, status, hstatus, ?_⟩
    simp only [Generation.restrict, hsolve]

/-- What a run from a cover of single pieces comes to: a result within as many rounds as there are
other patterns, or a number that is too long to be written, or an integer restriction that was not
solved to the optimum. -/
theorem Collects.solve_cases (h : stock.Collects Has cover)
    (hobliges : generation.engine.Obliges Has) (hserves : stock.Serves generation.oracle)
    (htolerance : 0 ≤ generation.settings.tolerance) (halone : generation.observers = [])
    (hdual : generation.DuallyFeasible { cover, oracle := () })
    (hcount : cover.pool.columns.length = stock.numItems) :
    (∃ after outcome, generation.solve cover () = (after, .ok outcome) ∧ after.cover.Served Has ∧
      stock.numItems + outcome.rounds ≤ stock.numPatterns ∧
      (stock.numPatterns ≤ stock.numItems + generation.settings.rounds →
        outcome.converged = true)) ∨
    (∃ after, generation.solve cover () = (after, .error .integerTooLong) ∧
      stock.IsFull after.cover) ∨
    (generation.settings.solveInteger.truthy = true ∧ ∃ after status, status ≠ Status.optimal ∧
      generation.solve cover () = (after, .error (.restrictionFailed status))) := by
  have hfirst : stock.Collects Has ({ cover, oracle := () } : Generation.Progress ε Unit Rat).cover :=
    h
  rcases hfirst.loop_cases hobliges hserves htolerance halone hdual generation.settings.rounds .refl
    hcount with ⟨ended, status, hloop, hcollects, hbound, hstatus⟩ | ⟨after, hloop, hfull⟩
  · obtain ⟨outcome, houtcome, hrounds, hconverged⟩ := exists_outcomeOf generation ended status
    rw [← hrounds] at hbound
    have hoptimal : stock.numPatterns ≤ stock.numItems + generation.settings.rounds →
        outcome.converged = true := by
      intro hbudget
      rcases hstatus with rfl | ⟨-, htotal, hlt⟩
      · exact hconverged
      · rw [List.length_nil] at htotal
        omega
    by_cases hinteger : generation.settings.solveInteger.truthy = true
    · rcases hcollects.restrict_cases hobliges outcome with
        ⟨after, restricted, hrestrict, hserved, hsame, hkept⟩ | ⟨after, status, hfailed, hrestrict⟩
      · refine Or.inl ⟨after, restricted, ?_, hserved, hsame ▸ hbound, hkept ▸ hoptimal⟩
        simp only [Generation.solve, hloop, houtcome, hinteger, if_true, hrestrict]
      · refine Or.inr (Or.inr ⟨hinteger, after, status, hfailed, ?_⟩)
        simp only [Generation.solve, hloop, houtcome, hinteger, if_true, hrestrict]
    · refine Or.inl ⟨ended, outcome, ?_, hcollects.served, hbound, hoptimal⟩
      simp only [Generation.solve, hloop, houtcome, hinteger]
      rfl
  · refine Or.inr (Or.inl ⟨after, ?_, hfull⟩)
    simp only [Generation.solve, hloop]

/-- A run whose oracle fails for all duals fails with it in its first round. -/
theorem Collects.solve_of_price_error (h : stock.Collects Has cover)
    (hobliges : generation.engine.Obliges Has)
    (hdual : cover.DuallyFeasible generation.engine) (hrounds : 1 ≤ generation.settings.rounds)
    {fault : Fault} (hprice : ∀ duals : List Rat, duals.length = stock.numItems →
      generation.oracle.price () duals = ((), [], .error fault)) :
    ∃ after, generation.solve cover () = (after, .error fault) := by
  obtain ⟨objective, duals, hreports, -⟩ := hdual
  obtain ⟨relaxed, solution, hrelaxed, rfl, -⟩ :=
    h.served.solveRelaxation hobliges hreports generation.feasibility
  have hfailed := hprice solution.duals (h.length_duals hreports)
  obtain ⟨rounds, hsucc⟩ : ∃ rounds, generation.settings.rounds = rounds + 1 :=
    ⟨generation.settings.rounds - 1, by omega⟩
  simp only [Generation.solve, hsucc, Generation.loop, Generation.round, Generation.advance, hrelaxed,
    hfailed, Generation.Progress.tell]
  exact ⟨_, rfl⟩

end CuttingStock

end PatternCovering
