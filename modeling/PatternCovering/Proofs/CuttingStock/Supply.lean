import PatternCovering.Proofs.CuttingStock.Convergence
import PatternCovering.Proofs.Model.OneRow

/-!
# What a plan supplies

A plan lists the patterns in use with the number of rolls for each. Under the last relaxation it
supplies each item as much as is wanted, but for what columns within the tolerance of zero would have
yielded. Whole rolls supply all that is wanted, since a whole number within a tolerance below one of
zero is zero. Nothing is assumed of the engine but that the values it gave meet the demands.
-/

namespace PatternCovering

namespace Pattern

/-- Items before the first one do not occur in a pattern. -/
theorem lookup_ofCountsFrom_lt {first item : Nat} (h : item < first) (counts : List Nat) :
    (ofCountsFrom first counts).lookup item = none := by
  induction counts generalizing first with
  | nil => rfl
  | cons count rest ih =>
    have hrest := ih (Nat.lt_succ_of_lt h)
    rw [ofCountsFrom]
    split
    · rw [List.lookup_cons, beq_eq_false_iff_ne.mpr (Nat.ne_of_lt h)]
      exact hrest
    · exact hrest

/-- The count of an item from the first one on is the one in the list of counts. -/
theorem count_ofCountsFrom (first item : Nat) (counts : List Nat) :
    (ofCountsFrom first counts).count (first + item) = counts.getD item 0 := by
  induction counts generalizing first item with
  | nil => rfl
  | cons count rest ih =>
    cases item with
    | zero =>
      rw [ofCountsFrom]
      split
      · simp [Pattern.count]
      · next hzero =>
        rw [Pattern.count, lookup_ofCountsFrom_lt (by omega)]
        simp; omega
    | succ item =>
      have hrest := ih (first + 1) item
      rw [Nat.add_right_comm, Nat.add_assoc] at hrest
      rw [ofCountsFrom]
      split
      · rw [Pattern.count, List.lookup_cons, beq_eq_false_iff_ne.mpr (by omega)]
        exact hrest
      · exact hrest

/-- The count of an item in a sparse pattern is the one in the list of counts. -/
theorem count_ofCounts (counts : List Nat) (item : Nat) :
    (ofCounts counts).count item = counts.getD item 0 := by
  have hcount := count_ofCountsFrom 0 item counts
  rwa [Nat.zero_add] at hcount

end Pattern

/-- A natural number is rounded to itself. -/
theorem roundHalfEven_natCast (n : Nat) : roundHalfEven (n : Rat) = n := by
  simp [roundHalfEven, divHalfEven, Nat.mod_one]

/-- How much of an item patterns supply, with the number of rolls for each. -/
def supplyOf {β : Type} [Semiring β] (patterns : List (Pattern × β)) (item : Nat) : β :=
  (patterns.map fun entry => (entry.1.count item : β) * entry.2).sum

/-- How many pieces of an item the columns have together whose values are not above a tolerance. -/
def spareOf (tolerance : Rat) (columns : List (Column Rat)) (values : List Rat) (item : Nat) : Rat :=
  (List.zipWith (fun column value => if value ≤ tolerance then (column.counts.getD item 0 : Rat)
    else 0) columns values).sum

section InUse

open Cover CuttingPlan

variable {tolerance : Rat} {columns : List (Column Rat)} {values : List Rat}

/-- The columns in use are found one after the other. -/
theorem Cover.inUse_cons (tolerance : Rat) (column : Column Rat) (columns : List (Column Rat))
    (value : Rat) (values : List Rat) :
    inUse tolerance (column :: columns) (value :: values) =
      if tolerance < value then { column with value := some value } :: inUse tolerance columns values
      else inUse tolerance columns values := by
  by_cases hused : tolerance < value <;> simp [inUse, hused]

/-- What columns yield is supplied by those in use, but for a yield at the tolerance of the others. -/
theorem yieldOf_le_supplyOf (tolerance : Rat) (columns : List (Column Rat)) (values : List Rat)
    (item : Nat) :
    yieldOf columns values item ≤ supplyOf (usages (inUse tolerance columns values)) item +
      tolerance * spareOf tolerance columns values item := by
  induction columns generalizing values with
  | nil => simp [yieldOf, inUse, usages, supplyOf, spareOf]
  | cons column columns ih =>
    cases values with
    | nil => simp [yieldOf, inUse, usages, supplyOf, spareOf]
    | cons value values =>
      have hrest := ih values
      have hcount : (0 : Rat) ≤ (column.counts.getD item 0 : Rat) := Nat.cast_nonneg _
      rw [inUse_cons]
      simp only [yieldOf, spareOf, List.zipWith_cons_cons, List.sum_cons] at hrest ⊢
      by_cases hused : tolerance < value
      · simp only [if_pos hused, if_neg (not_le.mpr hused), usages, supplyOf, List.map_cons,
          List.sum_cons, Column.pattern, Pattern.count_ofCounts, Option.getD_some] at hrest ⊢
        linarith
      · have hbelow : value ≤ tolerance := not_lt.mp hused
        rw [if_neg hused, if_pos hbelow]
        have hyield := mul_le_mul_of_nonneg_left hbelow hcount
        linarith

/-- The rolls of columns in use are positive, if values are whole. -/
theorem rounded_pos (htolerance : 0 ≤ tolerance) (hwhole : ∀ value ∈ values, ∃ n : Nat, value = n) :
    ∀ entry ∈ (usages (inUse tolerance columns values)).map fun entry =>
      (entry.1, roundHalfEven entry.2), 0 < entry.2 := by
  simp only [usages, inUse, List.map_map, List.forall_mem_map, List.mem_filterMap]
  rintro column ⟨used, hused, hsome⟩
  split at hsome
  · next habove =>
    obtain ⟨n, hn⟩ := hwhole used.2 (List.of_mem_zip hused).2
    have hpos : (0 : Rat) < n := hn ▸ htolerance.trans_lt habove
    obtain rfl := Option.some.inj hsome
    simp only [Function.comp_apply, Option.getD_some, hn, roundHalfEven_natCast]
    exact_mod_cast hpos
  · cases hsome

/-- Columns in use supply all that columns yield, if values are whole and those not in use are below
one. -/
theorem supplyOf_rounded (hsmall : tolerance < 1)
    (hwhole : ∀ value ∈ values, ∃ n : Nat, value = n) (item : Nat) :
    ((supplyOf ((usages (inUse tolerance columns values)).map fun entry =>
        (entry.1, roundHalfEven entry.2)) item : Int) : Rat) = yieldOf columns values item := by
  induction columns generalizing values with
  | nil => simp [yieldOf, inUse, usages, supplyOf]
  | cons column columns ih =>
    cases values with
    | nil => simp [yieldOf, inUse, usages, supplyOf]
    | cons value values =>
      obtain ⟨⟨n, rfl⟩, hrest⟩ := List.forall_mem_cons.mp hwhole
      have hothers := ih hrest
      rw [inUse_cons]
      simp only [yieldOf, List.zipWith_cons_cons, List.sum_cons] at hothers ⊢
      by_cases hused : tolerance < n
      · simp only [if_pos hused, usages, supplyOf, List.map_cons, List.sum_cons, Column.pattern,
          Pattern.count_ofCounts, Option.getD_some, roundHalfEven_natCast] at hothers ⊢
        push_cast
        rw [← hothers]
        push_cast
        rfl
      · have hzero : n = 0 := by
          have hlt : (n : Rat) < 1 := (not_lt.mp hused).trans_lt hsmall
          exact Nat.lt_one_iff.mp (by exact_mod_cast hlt)
        rw [if_neg hused, hothers, hzero]
        simp

end InUse

namespace Generation

variable {ε σ : Type} {generation : Generation ε σ Rat} {progress after : Progress ε σ Rat}

/-- Whether an oracle leaves it to the cover to number its columns. -/
def OffersUnnumbered (generation : Generation ε σ Rat) : Prop :=
  ∀ state duals offer, (generation.oracle.price state duals).2.2 = .ok offer →
    offer.column.id = .null

/-- A round keeps the columns listed, and adds at most one. -/
theorem listed_of_round (hoffers : generation.OffersUnnumbered) (h : progress.cover.Listed)
    {result : Option GenerationStatus} (hround : generation.round progress = (after, .ok result)) :
    after.cover.Listed ∧
      ∃ more, after.cover.pool.columns = progress.cover.pool.columns ++ more := by
  obtain ⟨relaxed, solution, asked, grown, done, hrelaxed, hasked, hgrown, hnoted, -⟩ :=
    parts_of_round hround
  have hlisted := (h.solveRelaxation hrelaxed).noted hasked
  have hcolumns : asked.pool.columns = progress.cover.pool.columns := by
    rw [hasked.pool_eq, (Cover.pool_of_solveRelaxation hrelaxed).1]
  rw [hnoted.pool_eq]
  rcases hgrown with rfl | ⟨offer, stored, hprice, hadded⟩
  · exact ⟨hlisted.noted hnoted, [], by rw [hcolumns, List.append_nil]⟩
  · have hid := hoffers _ _ _ hprice
    refine ⟨(hlisted.addColumn hid hadded).noted hnoted, [stored], ?_⟩
    rw [(Cover.columns_of_addColumn hadded).2, hcolumns]

/-- Before each round of a run the columns are listed. -/
theorem listed_of_reaches (hoffers : generation.OffersUnnumbered) {first : Progress ε σ Rat}
    (h : first.cover.Listed) (hreaches : generation.Reaches first progress) :
    progress.cover.Listed := by
  induction hreaches with
  | refl => exact h
  | round _ hround ih => exact (listed_of_round hoffers ih hround).1

/-- After rounds that do not fail the columns are listed. -/
theorem listed_of_loop (hoffers : generation.OffersUnnumbered) {rounds : Nat}
    {status : GenerationStatus} (h : progress.cover.Listed)
    (hloop : generation.loop rounds progress = (after, .ok status)) : after.cover.Listed := by
  rcases Nat.eq_zero_or_pos rounds with rfl | hsome
  · rw [loop] at hloop
    obtain ⟨-, noted, hnoted, rfl⟩ := of_close hloop
    exact h.noted hnoted
  · obtain ⟨last, final, result, noted, hreaches, hround, hnoted, rfl⟩ :=
      exists_last_of_loop hsome .refl hloop
    exact (listed_of_round hoffers (listed_of_reaches hoffers h hreaches) hround).1.noted hnoted

/-- The columns of the integer restriction are those in use in its solution. -/
theorem integerColumns_of_solve {cover : Cover ε Rat} {oracle : σ} {outcome : Outcome Rat}
    (h : generation.solve cover oracle = (after, .ok outcome))
    (hinteger : generation.settings.solveInteger.truthy = true) :
    ∃ ended status restricted solution,
      generation.loop generation.settings.rounds { cover, oracle } = (ended, .ok status) ∧
      ended.cover.solveRestriction generation.engine generation.feasibility =
        (restricted, .ok solution) ∧
      restricted.activeColumns solution generation.feasibility = .ok outcome.integerColumns := by
  simp only [solve, hinteger, if_true] at h
  split at h
  · cases h
  · next ended status hloop =>
    split at h
    · cases h
    · obtain ⟨restricted, solution, integerColumns, hrestricted, hcolumns, rfl, -⟩ :=
        exists_restrict h
      exact ⟨ended, status, restricted, solution, hloop, hrestricted, hcolumns⟩

/-- Under the last relaxation of a run, the columns of its result are those with a value above the
tolerance, each with its own value. -/
theorem exists_lastValues (hoffers : generation.OffersUnnumbered)
    (htolerance : 0 ≤ generation.feasibility) {cover : Cover ε Rat} (hlisted : cover.Listed)
    {oracle : σ} {outcome : Outcome Rat} (h : generation.solve cover oracle = (after, .ok outcome))
    (hrounds : 1 ≤ generation.settings.rounds) :
    ∃ last values, generation.Reaches { cover, oracle } last ∧
      outcome.rounds = last.history.length + 1 ∧
      last.cover.RelaxationValues generation.engine values ∧
      outcome.columns = Cover.inUse generation.feasibility last.cover.pool.columns values := by
  obtain ⟨last, final, result, relaxed, solution, reported, hreaches, hround, hrelaxed, hnoted, -,
    hcount, hactive⟩ := exists_last_of_solve h hrounds
  have hlast := listed_of_reaches hoffers hlisted hreaches
  obtain ⟨hfinal, more, hmore⟩ := listed_of_round hoffers hlast hround
  obtain ⟨values, hvalues, hlength, hkept⟩ := hlast.exists_relaxationValues hrelaxed
  have hcolumns : reported.pool.columns = last.cover.pool.columns ++ more := by
    rw [hnoted.pool_eq, hmore]
  rw [Cover.activeColumns_eq (hfinal.noted hnoted) hcolumns hlength hkept htolerance] at hactive
  exact ⟨last, values, hreaches, hcount, hvalues, (Except.ok.inj hactive).symm⟩

/-- Under the integer restriction of a run, the integer columns of its result are those with a value
above the tolerance, each with its own value. -/
theorem exists_integerValues (hoffers : generation.OffersUnnumbered)
    (htolerance : 0 ≤ generation.feasibility) {cover : Cover ε Rat} (hlisted : cover.Listed)
    {oracle : σ} {outcome : Outcome Rat} (h : generation.solve cover oracle = (after, .ok outcome))
    (hinteger : generation.settings.solveInteger.truthy = true) :
    ∃ ended status values,
      generation.loop generation.settings.rounds { cover, oracle } = (ended, .ok status) ∧
      ended.cover.RestrictionValues generation.engine values ∧
      outcome.integerColumns =
        Cover.inUse generation.feasibility ended.cover.pool.columns values := by
  obtain ⟨ended, status, restricted, solution, hloop, hrestricted, hactive⟩ :=
    integerColumns_of_solve h hinteger
  have hended := listed_of_loop hoffers hlisted hloop
  obtain ⟨values, hvalues, hlength, hkept⟩ := hended.exists_restrictionValues hrestricted
  obtain ⟨_, _, restored, -, -, -, rfl⟩ := Cover.of_solveRestriction hrestricted
  have hrestored : Cover.Listed { ended.cover with problem := restored } :=
    ⟨hended.numbered, hended.length_handles⟩
  rw [Cover.activeColumns_eq hrestored (List.append_nil _).symm hlength hkept htolerance] at hactive
  exact ⟨ended, status, values, hloop, hvalues, (Except.ok.inj hactive).symm⟩

end Generation

namespace CuttingStock

/-- The patterns of a plan supply what is wanted. Under values of the last relaxation that meet the
demands, an item may fall short by the tolerance for each of its pieces in a column whose value is not
above the tolerance. Under whole values of the integer restriction that meet the demands, the rolls
of each pattern are positive and no item falls short. -/
theorem supply_meets_demands {ε : Type} {stock : CuttingStock} {engine : Engine ε Rat}
    {problem : Problem ε} {method : Datum} {settings : Except Fault (GenerationSettings Rat)}
    {feasibility : Rat} {fuel room : Nat} {after : Cover ε Rat} {plan : CuttingPlan Rat}
    (htolerance : 0 ≤ feasibility)
    (h : stock.solve engine problem method settings feasibility fuel room = (after, .ok plan)) :
    ∃ cover oracle given,
      Cover.build engine problem stock.items stock.problemName true = (cover, .ok ()) ∧
      stock.oracle method PricingSettings.standard fuel room = .ok oracle ∧ settings = .ok given ∧
      (1 ≤ given.rounds → ∃ last values,
        Generation.Reaches { engine, oracle, settings := given, feasibility }
          { cover, oracle := () } last ∧
        plan.rounds = last.history.length + 1 ∧ last.cover.RelaxationValues engine values ∧
        (MeetsDemands stock.demands last.cover.pool.columns values →
          ∀ item demand : Nat, stock.demands[item]? = some demand →
            (demand : Rat) - feasibility *
              spareOf feasibility last.cover.pool.columns values item ≤
                supplyOf plan.patterns item)) ∧
      (given.solveInteger.truthy = true → ∃ ended status values,
        Generation.loop { engine, oracle, settings := given, feasibility } given.rounds
          { cover, oracle := () } = (ended, .ok status) ∧
        ended.cover.RestrictionValues engine values ∧
        (feasibility < 1 → (∀ value ∈ values, ∃ n : Nat, value = n) →
          MeetsDemands stock.demands ended.cover.pool.columns values →
            (∀ entry ∈ plan.wholePatterns, 0 < entry.2) ∧
            ∀ item demand : Nat, stock.demands[item]? = some demand →
              (demand : Int) ≤ supplyOf plan.wholePatterns item)) := by
  obtain ⟨cover, oracle, given, progress, outcome, bound, hbuild, horacle, hgiven, hrun, -,
    hplan⟩ := of_solve h
  obtain ⟨wholeRolls, hmade⟩ := CuttingPlan.exists_ofOutcome outcome bound
  obtain rfl := Except.ok.inj (hmade.symm.trans hplan)
  have hlisted := Cover.Listed.build hbuild
  have hoffers : Generation.OffersUnnumbered { engine, oracle, settings := given, feasibility } :=
    fun _ _ _ hprice => id_of_oracle_price horacle hprice
  refine ⟨cover, oracle, given, hbuild, horacle, hgiven, fun hrounds => ?_, fun hinteger => ?_⟩
  · obtain ⟨last, values, hreaches, hcount, hvalues, hcolumns⟩ :=
      Generation.exists_lastValues hoffers htolerance hlisted hrun hrounds
    refine ⟨last, values, hreaches, hcount, hvalues, fun hmeets item demand hdemand => ?_⟩
    have hle := (hmeets.meets item demand hdemand).trans
      (yieldOf_le_supplyOf feasibility last.cover.pool.columns values item)
    rw [hcolumns]
    linarith
  · obtain ⟨ended, status, values, hloop, hvalues, hcolumns⟩ :=
      Generation.exists_integerValues hoffers htolerance hlisted hrun hinteger
    refine ⟨ended, status, values, hloop, hvalues, fun hsmall hwhole hmeets => ?_⟩
    rw [hcolumns]
    refine ⟨rounded_pos htolerance hwhole, fun item demand hdemand => ?_⟩
    have hle := hmeets.meets item demand hdemand
    rw [← supplyOf_rounded hsmall hwhole item] at hle
    exact_mod_cast hle

/-- Four pieces of one item, two of which fit into a roll. -/
def fourPieces : CuttingStock := ⟨[⟨5, 4, .null, by decide⟩], 11, .null, by decide, by decide⟩

/-- Settings for one round, with the integer restriction. -/
def oneRound : GenerationSettings Rat :=
  { budget := .int 1, tolerance := 0, solveInteger := .flag true }

/-- The cover for four pieces as it is built. -/
def firstCover : Cover (Model Rat) Rat :=
  (Cover.build (rowEngine 4) { engine := {} } fourPieces.items fourPieces.problemName true).1

/-- The cover for four pieces after the round. -/
def lastCover : Cover (Model Rat) Rat :=
  (Generation.loop
    { engine := rowEngine 4, oracle := (fourPieces.knapsack PricingSettings.standard).oracle
      settings := oneRound, feasibility := 1 / 10 }
    oneRound.rounds { cover := firstCover, oracle := () }).1.cover

/-- Columns meet the demand for four pieces if their values yield as much. -/
theorem meetsDemands_fourPieces {columns : List (Column Rat)} {values : List Rat}
    (hlength : values.length = columns.length) (hnonneg : ∀ value ∈ values, 0 ≤ value)
    (hyield : (List.zipWith (fun counts value => (counts.getD 0 0 : Rat) * value)
      (columns.map (·.counts)) values).sum = 4) :
    MeetsDemands fourPieces.demands columns values := by
  refine ⟨hlength, hnonneg, fun item demand hdemand => ?_⟩
  cases item with
  | zero =>
    obtain rfl : 4 = demand := Option.some.inj hdemand
    rw [List.zipWith_map_left] at hyield
    exact hyield.ge
  | succ item => cases hdemand

/-- In one round the relaxation knows single pieces only, and the column with two pieces comes after
it. Whole rolls are then cut by two pieces. -/
theorem supply_of_fourPieces :
    ∃ (after : Cover (Model Rat) Rat) (plan : CuttingPlan Rat),
      fourPieces.solve (rowEngine 4) { engine := {} } (.text "knapsack") (.ok oneRound) (1 / 10) 9 =
        (after, .ok plan) ∧
      plan.patterns = [([(0, 1)], 4)] ∧ plan.wholePatterns = [([(0, 2)], 2)] ∧
      4 ≤ supplyOf plan.patterns 0 ∧ (∀ entry ∈ plan.wholePatterns, 0 < entry.2) ∧
      4 ≤ supplyOf plan.wholePatterns 0 := by
  have hrun : ((fourPieces.solve (rowEngine 4) { engine := {} } (.text "knapsack") (.ok oneRound)
      (1 / 10) 9).2.toOption.any fun plan => plan.rounds == 1 &&
        plan.patterns == [([(0, 1)], 4)] && plan.wholePatterns == [([(0, 2)], 2)]) = true := by
    decide +kernel
  generalize hsolve : fourPieces.solve (rowEngine 4) { engine := {} } (.text "knapsack")
    (.ok oneRound) (1 / 10) 9 = run at hrun
  obtain ⟨after, answer⟩ := run
  obtain ⟨plan, hplan, hparts⟩ := (Option.any_eq_true _ _).mp hrun
  obtain rfl := toOption_eq_some.mp hplan
  simp only [Bool.and_eq_true, beq_iff_eq] at hparts
  obtain ⟨⟨hrounds, hpatterns⟩, hwhole⟩ := hparts
  obtain ⟨cover, oracle, given, hbuild, horacle, hgiven, hrelaxed, hinteger⟩ :=
    supply_meets_demands (by norm_num) hsolve
  obtain rfl := Except.ok.inj hgiven
  obtain rfl := Except.ok.inj horacle
  obtain ⟨last, values, hreaches, hcount, ⟨state, hstate, hvalues⟩, hsupply⟩ :=
    hrelaxed (by decide +kernel)
  obtain ⟨ended, status, wholes, hloop, ⟨changed, solved, hchanged, hsolved, hwholes⟩, hsupplies⟩ :=
    hinteger rfl
  refine ⟨after, plan, rfl, hpatterns, hwhole, ?_, ?_⟩
  · -- the only relaxation is that of the cover as it was built
    have hfirst : last = { cover, oracle := () } := by
      cases hreaches with
      | refl => rfl
      | round _ hround =>
        obtain ⟨_, _, _, _, _, -, -, -, -, -, hhistory, -⟩ := Generation.parts_of_round hround
        rw [hrounds, hhistory, List.length_append] at hcount
        simp at hcount
    subst hfirst
    obtain ⟨rfl, -⟩ := Prod.mk.inj hstate
    have hknown : (firstCover.pool.columns.map (·.counts), (firstCover.handles.mapM fun handle =>
        (rowEngine 4).primal firstCover.problem.engine (.int handle.index)).toOption) =
        ([[1]], some [4]) := by decide +kernel
    have hcover : firstCover = cover := by rw [firstCover, hbuild]
    rw [hcover] at hknown
    obtain ⟨hcounts, hfound⟩ := Prod.mk.inj hknown
    obtain rfl := Except.ok.inj (hvalues.symm.trans (toOption_eq_some.mp hfound))
    have hle := hsupply (meetsDemands_fourPieces (by simpa using (congrArg List.length hcounts).symm)
      (by norm_num) (by rw [hcounts]; norm_num)) 0 4 rfl
    obtain ⟨column, hcolumn, -⟩ := List.map_eq_singleton_iff.mp hcounts
    have hspare : spareOf (1 / 10) cover.pool.columns [4] 0 = 0 := by
      rw [hcolumn]
      norm_num [spareOf]
    rwa [hspare, mul_zero, sub_zero] at hle
  · obtain ⟨rfl, -⟩ := Prod.mk.inj hsolved
    have hknown : (lastCover.pool.columns.map (·.counts), (lastCover.handles.mapM fun handle =>
        (rowEngine 4).primal (Cover.setIntegers (rowEngine 4) true lastCover.handles
          lastCover.problem).1.engine (.int handle.index)).toOption) =
        ([[1], [2]], some [0, 2]) := by decide +kernel
    have hcover : lastCover = ended.cover := by rw [lastCover, firstCover, hbuild, hloop]
    rw [hcover, hchanged] at hknown
    obtain ⟨hcounts, hfound⟩ := Prod.mk.inj hknown
    obtain rfl := Except.ok.inj (hwholes.symm.trans (toOption_eq_some.mp hfound))
    have hnatural : ∀ value ∈ ([0, 2] : List Rat), ∃ n : Nat, value = n := by
      simpa using ⟨⟨0, by norm_num⟩, ⟨2, by norm_num⟩⟩
    obtain ⟨hpositive, hle⟩ := hsupplies (by norm_num) hnatural
      (meetsDemands_fourPieces (by simpa using (congrArg List.length hcounts).symm) (by norm_num)
        (by rw [hcounts]; norm_num))
    exact ⟨hpositive, hle 0 4 rfl⟩

end CuttingStock

end PatternCovering
