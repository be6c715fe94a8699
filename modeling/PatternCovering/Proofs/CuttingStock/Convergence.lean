import PatternCovering.Proofs.CuttingStock.Certificate
import PatternCovering.Proofs.CuttingStock.Collecting
import PatternCovering.Proofs.Generation.Trace

/-!
# Finite convergence

Both oracles of an instance answer all duals with a best pattern, the search if it may take enough
visits and the knapsack if it has room for its table. A run with either of them ends within as many
rounds as there are patterns besides those of single pieces, and a plan is made of its result.
-/

namespace PatternCovering

namespace CuttingStock

variable {ε : Type} {stock : CuttingStock} {engine : Engine ε Rat} {Has : ε → Nat → Nat → Prop}
  {cover : Cover ε Rat} {duals : List Rat} {offer : Offer Rat}

/-- The column of a label has no identifier. -/
theorem id_of_columnOf {search : PathSearch Int Rat} {pool : LabelPool Int Rat}
    {label : Label Int Rat} {column : Column Rat} (h : search.columnOf pool label = .ok column) :
    column.id = .null := by
  simp only [PathSearch.columnOf, bind_eq_ok] at h
  obtain ⟨_, -, _, -, _, -, _, -, _, -, _, -, h⟩ := h
  rw [← Except.ok.inj h]

/-- An offer of a search is a column without an identifier. -/
theorem id_of_price {search : PathSearch Int Rat} {fuel : Nat}
    (h : (search.price fuel duals).2 = .ok offer) : offer.column.id = .null := by
  obtain ⟨-, final, found, -, hfound, rfl⟩ := PathSearch.of_price h
  rw [PathSearch.offerAt] at hfound
  split at hfound
  · obtain ⟨zeros, -, hfound⟩ := bind_eq_ok.mp hfound
    rw [← Except.ok.inj hfound]
    rfl
  · obtain ⟨column, hcolumn, hfound⟩ := bind_eq_ok.mp hfound
    obtain ⟨reducedCost, -, hfound⟩ := bind_eq_ok.mp hfound
    have hid : column.id = .null := id_of_columnOf hcolumn
    rw [← Except.ok.inj hfound]
    exact hid

/-- An offer of a knapsack is a column without an identifier. -/
theorem id_of_knapsack_price {knapsack : Knapsack Rat} {events : List Event}
    (h : knapsack.price duals = .ok (offer, events)) : offer.column.id = .null := by
  obtain ⟨_, -, h⟩ := bind_eq_ok.mp h
  obtain ⟨_, -, h⟩ := bind_eq_ok.mp h
  rw [← (Prod.mk.inj (Except.ok.inj h)).1]
  rfl

/-- An offer of an oracle of an instance is a column without an identifier, whichever method it
uses. -/
theorem id_of_oracle_price {method : Datum} {settings : PricingSettings Rat} {fuel room : Nat}
    {oracle : Oracle Unit Rat} (horacle : stock.oracle method settings fuel room = .ok oracle)
    {state : Unit} (h : (oracle.price state duals).2.2 = .ok offer) : offer.column.id = .null := by
  simp only [CuttingStock.oracle] at horacle
  split at horacle
  · rw [← Except.ok.inj horacle] at h
    obtain ⟨events, hprice⟩ := Knapsack.of_oracle_price h
    exact id_of_knapsack_price hprice
  · obtain ⟨search, -, hsame⟩ := bind_eq_ok.mp horacle
    rw [← Except.ok.inj hsame] at h
    exact id_of_price h
  · cases horacle

/-- The search serves an instance, once it may take enough visits. -/
theorem exists_serves_search (hitems : 0 < stock.numItems) :
    ∃ limit, ∀ fuel room, limit ≤ fuel → ∃ oracle,
      stock.oracle (.text "spprc") PricingSettings.standard fuel room = .ok oracle ∧
        oracle.numItems = .int stock.numItems ∧ stock.Serves oracle := by
  have hnolimit : (PricingSettings.standard : PricingSettings Rat).maxLabels ≤ 0 := le_refl 0
  obtain ⟨limit, hends⟩ := exists_price_stageSearch hitems hnolimit
  refine ⟨limit, fun fuel room hfuel => ⟨(stock.stageSearch PricingSettings.standard).oracle fuel, ?_,
    rfl, fun duals hlength => ?_⟩⟩
  · simp only [oracle, pathSearch_eq hitems]
    rfl
  · obtain ⟨offer, hoffer⟩ := hends duals hlength
    have hprice := hoffer fuel hfuel
    exact ⟨_, offer, Prod.ext rfl (Prod.ext rfl hprice), id_of_price hprice,
      stageSearch_offersBest hitems hnolimit hprice⟩

/-- Whether the oracle of a method serves an instance, or is a knapsack that fails for want of room
for its table. -/
def ServesInRoom (stock : CuttingStock) (method : String) (room : Nat) (oracle : Oracle Unit Rat) :
    Prop :=
  stock.Serves oracle ∨ ∃ fault, method = "knapsack" ∧
    (stock.knapsack (PricingSettings.standard : PricingSettings Rat)).requireRoom room =
      .error fault ∧
    ∀ duals : List Rat, duals.length = stock.numItems →
      oracle.price () duals = ((), [], .error fault)

/-- The knapsack serves an instance if there is room for its table. -/
theorem servesInRoom_knapsack (stock : CuttingStock) (room : Nat) :
    stock.ServesInRoom "knapsack" room ((stock.knapsack PricingSettings.standard).oracle room) := by
  rcases hroom :
      (stock.knapsack (PricingSettings.standard : PricingSettings Rat)).requireRoom room with
    fault | done
  · refine Or.inr ⟨fault, rfl, hroom, fun duals hlength => ?_⟩
    have hread : readDuals
        ((stock.knapsack (PricingSettings.standard : PricingSettings Rat)).numItems : Int) duals =
          .ok duals :=
      readDuals_eq_ok (Int.ofNat_inj.mpr (hlength.trans stock.length_widths.symm))
    simp only [Knapsack.oracle, Knapsack.priceInRoom, hread, hroom, bind, Except.bind]
  · refine Or.inl fun duals hlength => ?_
    obtain ⟨offer, events, hprice, hbest⟩ :=
      (stock.knapsack PricingSettings.standard).price_best (hlength.trans stock.length_widths.symm)
    exact ⟨events, offer, Knapsack.oracle_price_eq hroom hprice, id_of_knapsack_price hprice, hbest⟩

/-- The plan of an instance is made of the run over its cover, and fails as the run does. -/
theorem solve_of_run {problem : Problem ε} {method : Datum} {settings : GenerationSettings Rat}
    {feasibility : Rat} {fuel room : Nat} {oracle : Oracle Unit Rat}
    (hbuild : Cover.build engine problem stock.items stock.problemName true = (cover, .ok ()))
    (h : stock.Collects Has cover)
    (horacle : stock.oracle method PricingSettings.standard fuel room = .ok oracle)
    (hnumItems : oracle.numItems = .int stock.numItems) {after : Generation.Progress ε Unit Rat}
    {result : Except Fault (Outcome Rat)}
    (hsolve : Generation.solve { engine, oracle, settings, feasibility } cover () = (after, result)) :
    (∀ fault, result = .error fault →
      stock.solve engine problem method (.ok settings) feasibility fuel room =
        (after.cover, .error fault)) ∧
    (∀ outcome, result = .ok outcome → after.cover.Served Has →
      ∃ plan, (stock.solve engine problem method (.ok settings) feasibility fuel room).2 = .ok plan ∧
        plan.rounds = outcome.rounds ∧ plan.converged = outcome.converged) := by
  have hcheck : cover.checkOracle oracle = .ok () := by
    have hsame : (Datum.int cover.numItems).eq oracle.numItems = true := by
      rw [hnumItems, Cover.numItems, h.items_eq]
      simp [Datum.int, Datum.eq, Number.eq, Number.compareWith, Number.exactValue?, numItems]
    rw [Cover.checkOracle, if_pos hsame]
  constructor
  · rintro fault rfl
    simp only [solve, hbuild, horacle, hcheck, bind, Except.bind, pure, Except.pure, hsolve]
  · rintro outcome rfl hserved
    obtain ⟨wholeRolls, hplan⟩ :=
      CuttingPlan.exists_ofOutcome outcome (mkRat stock.totalWidth stock.capacity)
    have hbound : (stock.lowerBound : Except Fault Rat) =
        .ok (mkRat stock.totalWidth stock.capacity) := rfl
    simp only [solve, hbuild, horacle, hcheck, bind, Except.bind, pure, Except.pure, hsolve, hbound,
      Cover.tell, Problem.tell, hserved.books.hears]
    exact ⟨_, hplan, rfl, rfl⟩

/-- How a run over an instance may break off at a cover: its knapsack has no room for a table, the
number of the next column is too long to be written, or the integer restriction was not solved to the
optimum. -/
inductive BreaksOff (stock : CuttingStock) (method : String) (room : Nat) (solveInteger : Datum)
    (cover : Cover ε Rat) : Fault → Prop
  | noRoom {fault : Fault} (hmethod : method = "knapsack")
    (hroom : (stock.knapsack (PricingSettings.standard : PricingSettings Rat)).requireRoom room =
      .error fault) : BreaksOff stock method room solveInteger cover fault
  | tooLong (hfull : stock.IsFull cover) :
    BreaksOff stock method room solveInteger cover .integerTooLong
  | restriction {status : Status} (hinteger : solveInteger.truthy = true)
    (hstatus : status ≠ .optimal) :
    BreaksOff stock method room solveInteger cover (.restrictionFailed status)

/-- A run does not break off because an offer was known already. -/
theorem BreaksOff.ne_pricedAgain {method : String} {room : Nat} {solveInteger : Datum} {fault : Fault}
    (h : stock.BreaksOff method room solveInteger cover fault) (pattern : Pattern)
    (reducedCost : String) : fault ≠ .columnPricedAgain pattern reducedCost := by
  cases h with
  | noRoom _ hroom =>
    intro heq
    rw [heq, Knapsack.requireRoom] at hroom
    split at hroom
    · cases hroom
    · split at hroom
      · cases hroom
      · cases hroom
  | tooLong => simp
  | restriction => simp

/-- Settings with a budget of at least one round and a tolerance that is not negative are accepted. -/
theorem make_eq_ok {budget : Int} (hbudget : 1 ≤ budget) {tolerance : Rat} (htolerance : 0 ≤ tolerance)
    (solveInteger verbose : Datum) :
    GenerationSettings.make (.int budget) tolerance solveInteger verbose =
      .ok { budget := .int budget, tolerance, solveInteger, verbose } := by
  have hsmall : ¬ budget < 1 := by omega
  have hnegative : ¬ tolerance < ((0 : Int) : Rat) := by simpa using htolerance
  simp only [GenerationSettings.make, GenerationSettings.checkBudget,
    GenerationSettings.checkTolerance, Datum.lt_int, Quantity.lt?_rat, Quantity.ofInt_rat,
    decide_eq_false hsmall, decide_eq_false hnegative, bind, Except.bind]
  rfl

/-- Settings with a budget below one round are refused. -/
theorem make_eq_error {budget : Int} (hbudget : budget < 1) (tolerance : Rat)
    (solveInteger verbose : Datum) :
    GenerationSettings.make (.int budget) tolerance solveInteger verbose =
      .error (.budgetTooSmall (.int budget)) := by
  simp only [GenerationSettings.make, GenerationSettings.checkBudget, Datum.lt_int,
    decide_eq_true hbudget, bind, Except.bind]
  rfl

/-- Either method gives an oracle that serves an instance once it may take enough visits, but for a
knapsack that has no room for its table. -/
theorem exists_oracle (hitems : 0 < stock.numItems) {method : String}
    (hmethod : method = "knapsack" ∨ method = "spprc") :
    ∃ limit, ∀ fuel room, limit ≤ fuel → ∃ oracle,
      stock.oracle (.text method) PricingSettings.standard fuel room = .ok oracle ∧
        oracle.numItems = .int stock.numItems ∧ stock.ServesInRoom method room oracle := by
  rcases hmethod with rfl | rfl
  · refine ⟨0, fun fuel room _ => ⟨(stock.knapsack PricingSettings.standard).oracle room, rfl, ?_,
      stock.servesInRoom_knapsack room⟩⟩
    exact congrArg (fun number : Nat => Datum.int number) stock.length_widths
  · obtain ⟨limit, hsearch⟩ := exists_serves_search hitems
    refine ⟨limit, fun fuel room hfuel => ?_⟩
    obtain ⟨oracle, horacle, hnumItems, hserves⟩ := hsearch fuel room hfuel
    exact ⟨oracle, horacle, hnumItems, Or.inl hserves⟩

/-- What solving an instance comes to, for a budget of at least one round: a plan within as many
rounds as there are patterns besides those of single pieces, or a run that breaks off. -/
theorem solve_cases (hobliges : engine.Obliges Has) {state : ε} {listener : Listener}
    (hbuild : Cover.build engine { engine := state, listener } stock.items stock.problemName true =
      (cover, .ok ()))
    (h : stock.Collects Has cover) (hcount : cover.pool.columns.length = stock.numItems)
    {method : String} {fuel room : Nat} {oracle : Oracle Unit Rat}
    (horacle : stock.oracle (.text method) PricingSettings.standard fuel room = .ok oracle)
    (hnumItems : oracle.numItems = .int stock.numItems)
    (hserves : stock.ServesInRoom method room oracle)
    {settings : GenerationSettings Rat} (hrounds : 1 ≤ settings.rounds)
    (htolerance : 0 ≤ settings.tolerance) {feasibility : Rat}
    (hdual : Generation.DuallyFeasible { engine, oracle, settings, feasibility }
      { cover, oracle := () }) :
    (∃ plan, (stock.solve engine { engine := state, listener } (.text method) (.ok settings)
        feasibility fuel room).2 = .ok plan ∧
      stock.numItems + plan.rounds ≤ stock.numPatterns ∧
      (stock.numPatterns ≤ stock.numItems + settings.rounds → plan.converged = true)) ∨
    ∃ last fault, stock.solve engine { engine := state, listener } (.text method) (.ok settings)
        feasibility fuel room = (last, .error fault) ∧
      stock.BreaksOff method room settings.solveInteger last fault := by
  rcases hserves with hserves | ⟨fault, hknapsack, hroom, hprice⟩
  · rcases h.solve_cases hobliges hserves htolerance rfl hdual hcount with
      ⟨after, outcome, hsolve, hserved, hbound, hconverged⟩ | ⟨after, hsolve, hfull⟩ |
      ⟨hinteger, after, status, hstatus, hsolve⟩
    · obtain ⟨plan, hplan, hsame, hkept⟩ :=
        (solve_of_run hbuild h horacle hnumItems hsolve).2 outcome rfl hserved
      rw [← hsame] at hbound
      rw [← hkept] at hconverged
      exact Or.inl ⟨plan, hplan, hbound, hconverged⟩
    · have hfailed := (solve_of_run hbuild h horacle hnumItems hsolve).1 _ rfl
      exact Or.inr ⟨_, _, hfailed, .tooLong hfull⟩
    · have hfailed := (solve_of_run hbuild h horacle hnumItems hsolve).1 _ rfl
      exact Or.inr ⟨_, _, hfailed, .restriction hinteger hstatus⟩
  · obtain ⟨after, hsolve⟩ := h.solve_of_price_error hobliges (hdual _ .refl) hrounds hprice
    have hfailed := (solve_of_run hbuild h horacle hnumItems hsolve).1 _ rfl
    exact Or.inr ⟨_, _, hfailed, .noRoom hknapsack hroom⟩

/-- Column generation for an instance converges within as many rounds as there are patterns besides
those of single pieces, with either method, every tolerance and whatever room, and never is an offer
known already:
provided that the engine refuses nothing and solves each relaxation to the optimum, with duals that
are feasible for the columns known then. -/
theorem converges_within_patterns (hobliges : engine.Obliges Has) (hitems : 0 < stock.numItems)
    {method : String} (hmethod : method = "knapsack" ∨ method = "spprc") {listener : Listener}
    (hears : ∀ event, listener event = .ok ()) :
    ∃ limit, ∀ fuel room, limit ≤ fuel →
      ∀ (state : ε) (budget : Int) (tolerance feasibility : Rat) (solveInteger verbose : Datum),
        0 ≤ tolerance →
        (∀ oracle, stock.oracle (.text method) PricingSettings.standard fuel room = .ok oracle →
          Generation.DuallyFeasible
            { engine, oracle, feasibility
              settings := { budget := .int budget, tolerance, solveInteger, verbose } }
            { cover := (Cover.build engine { engine := state, listener } stock.items
                stock.problemName true).1
              oracle := () }) →
        ∀ last result, stock.solve engine { engine := state, listener } (.text method)
          (GenerationSettings.make (.int budget) tolerance solveInteger verbose) feasibility
            fuel room = (last, result) →
          (∀ pattern reducedCost, result ≠ .error (.columnPricedAgain pattern reducedCost)) ∧
          (1 ≤ budget →
            (∃ plan, result = .ok plan ∧ plan.rounds ≤ stock.numPatterns - stock.numItems ∧
              ((stock.numPatterns - stock.numItems : Nat) ≤ budget → plan.converged = true)) ∨
            ∃ fault, result = .error fault ∧
              stock.BreaksOff method room solveInteger last fault) := by
  obtain ⟨limit, horacles⟩ := exists_oracle hitems hmethod
  refine ⟨limit, fun fuel room hfuel state budget tolerance feasibility solveInteger verbose htolerance
    hdual last result hresult => ?_⟩
  obtain ⟨oracle, horacle, hnumItems, hserves⟩ := horacles fuel room hfuel
  obtain ⟨cover, hbuild, hcollects, hcount⟩ := exists_build hobliges hitems state hears
  by_cases hbudget : 1 ≤ budget
  · have hmake := make_eq_ok hbudget htolerance solveInteger verbose
    obtain ⟨-, hrounds, -⟩ := GenerationSettings.of_make hmake
    have hfeasible := hdual oracle horacle
    rw [hbuild] at hfeasible
    rw [hmake] at hresult
    rcases solve_cases hobliges hbuild hcollects hcount horacle hnumItems hserves
      (by rw [hrounds]; omega) htolerance hfeasible with
      ⟨plan, hplan, hbound, hconverged⟩ | ⟨broken, fault, hfault, hbreaks⟩
    · rw [hresult] at hplan
      refine ⟨?_, fun _ => Or.inl ⟨plan, hplan, by omega, fun hle => hconverged ?_⟩⟩
      · rintro pattern reducedCost rfl
        cases hplan
      · rw [hrounds]
        omega
    · obtain ⟨rfl, rfl⟩ := Prod.mk.inj (hresult.symm.trans hfault)
      refine ⟨fun pattern reducedCost hpriced => ?_, fun _ => Or.inr ⟨fault, rfl, hbreaks⟩⟩
      exact hbreaks.ne_pricedAgain pattern reducedCost (Except.error.inj hpriced)
  · -- the settings are refused only once the cover is built, before any pricing
    rw [make_eq_error (Int.not_le.mp hbudget)] at hresult
    simp only [solve, hbuild, horacle, bind, Except.bind] at hresult
    obtain ⟨-, rfl⟩ := Prod.mk.inj hresult
    refine ⟨fun pattern reducedCost hpriced => ?_, fun hle => absurd hle hbudget⟩
    cases hpriced

/-- The engine for one row refuses nothing. -/
theorem obliges_oneRow (demand : Nat) : (oneRow demand).Obliges fun _ _ _ => True where
  create _ _ := ⟨_, rfl, trivial⟩
  addVariable _ _ := ⟨_, rfl, trivial⟩
  addRow _ _ := ⟨_, rfl, trivial⟩
  addCoefficient _ _ _ _ := ⟨_, rfl, trivial⟩
  setInteger _ _ _ := ⟨_, rfl, trivial⟩
  solve _ := ⟨_, _, rfl, trivial, fun _ => ⟨⟨_, rfl⟩, fun _ _ => ⟨_, rfl⟩⟩⟩

/-- The engine for one row solves a cover with feasible duals while no column has a greater count than
the best one. -/
theorem duallyFeasible_oneRow {demand : Nat} {cover : Cover (Nat × Datum) Rat}
    (h : (cover.rows.length == 1 && cover.problem.engine.1 != 0 &&
      cover.pool.columns.all fun column => decide (column.cost = 1) && column.counts.length == 1 &&
        column.counts.all (· ≤ cover.problem.engine.1)) = true) :
    cover.DuallyFeasible (oneRow demand) := by
  simp only [Bool.and_eq_true, beq_iff_eq, bne_iff_ne, List.all_eq_true, decide_eq_true_eq] at h
  obtain ⟨⟨hrows, hbest⟩, hcolumns⟩ := h
  obtain ⟨row, hrow⟩ := List.length_eq_one_iff.mp hrows
  refine ⟨some (demand / cover.problem.engine.1), [1 / (cover.problem.engine.1 : Rat)],
    ⟨cover.problem.engine, ?_, rfl, by rw [hrow]; rfl⟩, fun column hcolumn => ?_⟩
  · change (_, Except.ok (if cover.problem.engine.1 = 0 then Status.infeasible else .optimal)) = _
    rw [if_neg hbest]
  · obtain ⟨⟨hcost, hlength⟩, hcounts⟩ := hcolumns column hcolumn
    obtain ⟨count, hcount⟩ := List.length_eq_one_iff.mp hlength
    have hle : count ≤ cover.problem.engine.1 := hcounts count (by simp [hcount])
    have hpos : (0 : Rat) < cover.problem.engine.1 := by exact_mod_cast Nat.pos_of_ne_zero hbest
    rw [hcost, hcount, weigh_cons, weigh_nil_left, add_zero, one_div_mul_eq_div, div_le_one hpos]
    exact_mod_cast hle

/-- One item of width three in a roll of width seven. -/
def oneItem : CuttingStock := ⟨[⟨3, 5, .null, by decide⟩], 7, .null, by decide, by decide⟩

/-- Up to two pieces of the item fit into a roll. -/
theorem isPattern_oneItem (counts : List Nat) :
    IsPattern oneItem.widths oneItem.capacity counts ↔ counts = [0] ∨ counts = [1] ∨ counts = [2] := by
  have hweigh : ∀ count : Nat, weigh (rationals oneItem.widths) [count] = (3 * count : Nat) := by
    intro count
    change weigh [((3 : Nat) : Rat)] [count] = _
    rw [weigh_cons, weigh_nil_left, add_zero]
    push_cast
    rfl
  constructor
  · rintro ⟨hlength, hle⟩
    obtain ⟨count, rfl⟩ := List.length_eq_one_iff.mp hlength
    have hcount : 3 * count ≤ 7 := by
      rw [hweigh] at hle
      exact_mod_cast hle
    simp only [List.cons.injEq, and_true]
    omega
  · rintro (rfl | rfl | rfl) <;> exact ⟨rfl, by rw [hweigh]; decide⟩

/-- The item has three patterns. -/
theorem numPatterns_oneItem : oneItem.numPatterns = 3 := by
  have hset : {counts | IsPattern oneItem.widths oneItem.capacity counts} =
      (({[0], [1], [2]} : Finset (List Nat)) : Set (List Nat)) := by
    ext counts
    simpa using isPattern_oneItem counts
  rw [numPatterns, hset, Set.ncard_coe_finset]
  rfl

/-- The run over one item does not break off where there is room for the widths up to its capacity. -/
theorem not_breaksOff_oneItem {method : String} {cover : Cover ε Rat} {fault : Fault} :
    ¬ oneItem.BreaksOff method 8 (.flag false) cover fault := by
  intro h
  cases h with
  | noRoom _ hroom => cases hroom
  | tooLong hfull =>
    have hge : 10 ^ 1 ≤ 10 ^ Decimal.mostIntegerDigits := Nat.pow_le_pow_right (by decide) (by decide)
    have hlt : 10 ^ Decimal.mostIntegerDigits < 3 :=
      numPatterns_oneItem ▸ Nat.lt_of_le_of_lt hfull.length_ge hfull.length_lt
    omega
  | restriction hinteger => cases hinteger

/-- The run over one item. -/
def oneItemRun : Generation (Nat × Datum) Unit Rat where
  engine := oneRow 5
  oracle := (oneItem.knapsack PricingSettings.standard).oracle 8
  settings := { budget := .int 2, tolerance := 0 }
  feasibility := 0

/-- The state of the run over one item before its first round. -/
def oneItemStart : Generation.Progress (Nat × Datum) Unit Rat where
  cover := (Cover.build (oneRow 5) { engine := (0, .null) } oneItem.items oneItem.problemName true).1
  oracle := ()

/-- The relaxations of the run over one item are solved with feasible duals. -/
theorem duallyFeasible_oneItemRun : oneItemRun.DuallyFeasible oneItemStart := by
  have hreached : ∀ progress, oneItemRun.Reaches oneItemStart progress →
      progress = oneItemStart ∨ progress = (oneItemRun.round oneItemStart).1 := by
    intro progress h
    induction h with
    | refl => exact Or.inl rfl
    | round _ hround ih =>
      rcases ih with hstart | hsecond
      · rw [hstart] at hround
        exact Or.inr (congrArg Prod.fst hround).symm
      · have hended : (oneItemRun.round (oneItemRun.round oneItemStart).1).2.toOption =
            some (some .optimal) := by decide +kernel
        rw [← hsecond, hround] at hended
        cases hended
  intro progress h
  rcases hreached progress h with hstart | hsecond
  · rw [hstart]
    exact duallyFeasible_oneRow (by decide +kernel)
  · rw [hsecond]
    exact duallyFeasible_oneRow (by decide +kernel)

/-- Three patterns, one of them of a single piece: the run over one item converges within two
rounds. -/
theorem converges_on_one_item :
    ∃ limit, ∀ fuel, limit ≤ fuel → ∃ plan : CuttingPlan Rat,
      (oneItem.solve (oneRow 5) { engine := (0, .null) } (.text "knapsack")
        (GenerationSettings.make (.int 2) 0 (.flag false) (.flag false)) 0 fuel 8).2 = .ok plan ∧
      plan.rounds ≤ 2 ∧ plan.converged = true := by
  have hears : ∀ event, Listener.deaf event = .ok () := fun _ => rfl
  have hitems : 0 < oneItem.numItems := by decide
  obtain ⟨limit, hconverges⟩ :=
    converges_within_patterns (obliges_oneRow 5) hitems (Or.inl rfl) hears
  refine ⟨limit, fun fuel hfuel => ?_⟩
  have hdual : ∀ oracle,
      oneItem.oracle (.text "knapsack") PricingSettings.standard fuel 8 = .ok oracle →
      Generation.DuallyFeasible { oneItemRun with oracle } oneItemStart := by
    intro oracle horacle
    obtain rfl := Except.ok.inj horacle
    exact duallyFeasible_oneItemRun
  obtain ⟨-, hends⟩ := hconverges fuel 8 hfuel (0, .null) 2 0 0 (.flag false) (.flag false)
    (le_refl 0) hdual _ _ (Prod.mk.eta (p := oneItem.solve _ _ _ _ _ _ 8)).symm
  rw [numPatterns_oneItem] at hends
  rcases hends (by decide) with ⟨plan, hplan, hrounds, hconverged⟩ | ⟨fault, -, hbreaks⟩
  · exact ⟨plan, hplan, hrounds, hconverged (by decide)⟩
  · exact absurd hbreaks not_breaksOff_oneItem

end CuttingStock

end PatternCovering
