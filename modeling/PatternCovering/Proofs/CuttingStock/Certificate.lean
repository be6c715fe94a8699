import PatternCovering.CuttingStock.Solution
import PatternCovering.Proofs.CuttingStock.Agreement
import PatternCovering.Proofs.Generation.Run
import Mathlib.Algebra.Order.BigOperators.Ring.Finset

/-!
# The certificate of a converged plan

When column generation converges, no pattern of one roll is worth more than one and the tolerance
under the duals of the last relaxation. Duals that are not negative and whose value is that of the
relaxation then bound the rolls of every cutting from below, whether its patterns were generated or
not.
-/

namespace PatternCovering

/-- What an engine promises by strong duality: the duals of an optimal relaxation are not negative,
and the demands are worth the objective under them. -/
def Cover.StronglyDual {ε : Type} (engine : Engine ε Rat) (demands : List Nat)
    (cover : Cover ε Rat) : Prop :=
  ∀ objective duals, cover.Reports engine (some objective) duals →
    (∀ dual ∈ duals, 0 ≤ dual) ∧ objective = weigh duals demands

/-- What a pattern weighs, item by item. -/
theorem weigh_eq_sum (weights : List Rat) (counts : List Nat) :
    weigh weights counts =
      ∑ item ∈ Finset.range weights.length, weights.getD item 0 * (counts.getD item 0 : Rat) := by
  induction weights generalizing counts with
  | nil => simp
  | cons weight weights ih =>
    rw [List.length_cons, Finset.sum_range_succ']
    cases counts with
    | nil => simp
    | cons count counts =>
      rw [weigh_cons, ih, add_comm]
      simp only [List.getD_cons_succ, List.getD_cons_zero]

/-- The values of the patterns of a cutting add up item by item. -/
theorem sum_weigh (duals : List Rat) (cutting : List (List Nat × Rat)) :
    (cutting.map fun lot => weigh duals lot.1 * lot.2).sum =
      ∑ item ∈ Finset.range duals.length, duals.getD item 0 *
        (cutting.map fun lot => (lot.1.getD item 0 : Rat) * lot.2).sum := by
  induction cutting with
  | nil => simp
  | cons lot cutting ih =>
    simp only [List.map_cons, List.sum_cons, mul_add]
    rw [Finset.sum_add_distrib, ih, weigh_eq_sum, Finset.sum_mul]
    simp only [mul_assoc]

/-- A plan can be made of every result, and says what the result says; the usages of the integer
restriction are rounded. -/
theorem CuttingPlan.exists_ofOutcome (outcome : Outcome Rat) (bound : Rat) :
    ∃ wholeRolls, ofOutcome outcome bound = .ok {
      rolls := outcome.objective
      wholeRolls
      patterns := usages outcome.columns
      wholePatterns := (usages outcome.integerColumns).map fun entry =>
        (entry.1, roundHalfEven entry.2)
      converged := outcome.converged
      rounds := outcome.rounds
      numColumns := outcome.totalColumns
      lowerBound := bound } := by
  have hpatterns : (usages outcome.integerColumns).mapM
      (fun (pattern, usage) => do return (pattern, ← Quantity.round? usage)) =
      .ok ((usages outcome.integerColumns).map fun entry =>
        (entry.1, roundHalfEven entry.2)) := mapM_eq_ok _ fun entry _ => rfl
  rcases hobjective : outcome.integerObjective with - | objective
  · simp only [ofOutcome, hobjective, bind, Except.bind] at hpatterns ⊢
    simp only [hpatterns]
    exact ⟨_, rfl⟩
  · have hround : some <$> Quantity.round? objective =
        (.ok (some (roundHalfEven objective)) : Except Fault (Option Int)) := rfl
    simp only [ofOutcome, hobjective, hround, bind, Except.bind] at hpatterns ⊢
    simp only [hpatterns]
    exact ⟨_, rfl⟩

namespace CuttingStock

/-- A finite family of patterns, each with the number of rolls that it is used for, that covers the
demands of an instance. -/
structure IsCutting (stock : CuttingStock) (cutting : List (List Nat × Rat)) : Prop where
  pattern : ∀ lot ∈ cutting, IsPattern stock.widths stock.capacity lot.1
  nonneg : ∀ lot ∈ cutting, 0 ≤ lot.2
  covers : ∀ item demand : Nat, stock.demands[item]? = some demand →
    (demand : Rat) ≤ (cutting.map fun lot => (lot.1.getD item 0 : Rat) * lot.2).sum

/-- The demands of an instance are worth no more than the patterns of a cutting. -/
theorem weigh_demands_le {stock : CuttingStock} {duals : List Rat} {cutting : List (List Nat × Rat)}
    (hduals : ∀ dual ∈ duals, 0 ≤ dual) (hcutting : stock.IsCutting cutting) :
    weigh duals stock.demands ≤ (cutting.map fun lot => weigh duals lot.1 * lot.2).sum := by
  rw [weigh_eq_sum, sum_weigh]
  refine Finset.sum_le_sum fun item hitem => ?_
  have hdual : 0 ≤ duals.getD item 0 := by
    rw [List.getD_eq_getElem?_getD, List.getElem?_eq_getElem (Finset.mem_range.mp hitem)]
    exact hduals _ (List.getElem_mem _)
  refine mul_le_mul_of_nonneg_left ?_ hdual
  rcases hdemand : stock.demands[item]? with - | demand
  · -- an item without a demand is covered by anything
    rw [List.getD_eq_getElem?_getD, hdemand, Option.getD_none, Nat.cast_zero]
    refine List.sum_nonneg fun amount hamount => ?_
    obtain ⟨lot, hlot, rfl⟩ := List.mem_map.mp hamount
    exact mul_nonneg (Nat.cast_nonneg _) (hcutting.nonneg lot hlot)
  · rw [List.getD_eq_getElem?_getD, hdemand, Option.getD_some]
    exact hcutting.covers item demand hdemand

/-- If no pattern is worth more than a bound, the demands are worth no more than the bound for each
roll of a cutting. -/
theorem weigh_demands_le_mul {stock : CuttingStock} {duals : List Rat} {bound : Rat}
    {cutting : List (List Nat × Rat)} (hduals : ∀ dual ∈ duals, 0 ≤ dual)
    (hbound : ∀ counts, IsPattern stock.widths stock.capacity counts → weigh duals counts ≤ bound)
    (hcutting : stock.IsCutting cutting) :
    weigh duals stock.demands ≤ bound * (cutting.map (·.2)).sum := by
  calc weigh duals stock.demands
      ≤ (cutting.map fun lot => weigh duals lot.1 * lot.2).sum :=
        weigh_demands_le hduals hcutting
    _ ≤ (cutting.map fun lot => bound * lot.2).sum := by
        refine List.sum_le_sum fun lot hlot => ?_
        exact mul_le_mul_of_nonneg_right (hbound lot.1 (hcutting.pattern lot hlot))
          (hcutting.nonneg lot hlot)
    _ = bound * (cutting.map (·.2)).sum := List.sum_map_mul_left ..

/-- The plan of an instance is made of the result of a run over the cover of its items. -/
theorem of_solve {ε : Type} {stock : CuttingStock} {engine : Engine ε Rat} {problem : Problem ε}
    {method : Datum} {settings : Except Fault (GenerationSettings Rat)} {feasibility : Rat}
    {fuel room : Nat} {after : Cover ε Rat} {plan : CuttingPlan Rat}
    (h : stock.solve engine problem method settings feasibility fuel room = (after, .ok plan)) :
    ∃ cover oracle given progress outcome bound,
      Cover.build engine problem stock.items stock.problemName true = (cover, .ok ()) ∧
      stock.oracle method PricingSettings.standard fuel room = .ok oracle ∧ settings = .ok given ∧
      Generation.solve { engine, oracle, settings := given, feasibility } cover () =
        (progress, .ok outcome) ∧
      stock.lowerBound = .ok bound ∧ CuttingPlan.ofOutcome outcome bound = .ok plan := by
  simp only [CuttingStock.solve] at h
  split at h
  · cases h
  · next cover hbuild =>
    split at h
    · cases h
    · next generation hgeneration =>
      obtain ⟨oracle, horacle, hgeneration⟩ := bind_eq_ok.mp hgeneration
      obtain ⟨given, hgiven, hgeneration⟩ := bind_eq_ok.mp hgeneration
      obtain ⟨_, -, hgeneration⟩ := bind_eq_ok.mp hgeneration
      obtain rfl := Except.ok.inj hgeneration
      split at h
      · cases h
      · next progress outcome hsolve =>
        split at h
        · cases h
        · next bound hbound =>
          obtain ⟨-, hplan⟩ := Prod.mk.inj h
          obtain ⟨_, -, hplan⟩ := bind_eq_ok.mp hplan
          exact ⟨cover, oracle, given, progress, outcome, bound, hbuild, horacle, hgiven, hsolve,
            hbound, hplan⟩

/-- Behind a plan that converged stands a certified solution of the relaxation, and its objective is
the number of rolls. -/
theorem certificate_of_plan {ε : Type} {stock : CuttingStock} {engine : Engine ε Rat}
    {problem : Problem ε} {method : Datum} {settings : Except Fault (GenerationSettings Rat)}
    {feasibility : Rat} {fuel room : Nat} {after : Cover ε Rat} {plan : CuttingPlan Rat}
    (h : stock.solve engine problem method settings feasibility fuel room = (after, .ok plan))
    (hconverged : plan.converged = true) :
    ∃ oracle given solution, stock.oracle method PricingSettings.standard fuel room = .ok oracle ∧
      settings = .ok given ∧ plan.rolls = solution.objective ∧
      Generation.Certificate { engine, oracle, settings := given, feasibility }
        (Cover.build engine problem stock.items stock.problemName true).1 solution := by
  obtain ⟨cover, oracle, given, progress, outcome, bound, hbuild, horacle, hgiven, hsolve, -,
    hplan⟩ := of_solve h
  obtain ⟨wholeRolls, hmade⟩ := CuttingPlan.exists_ofOutcome outcome bound
  obtain rfl := Except.ok.inj (hmade.symm.trans hplan)
  obtain ⟨solution, hobjective, hcertified⟩ :=
    Generation.certificate_of_solve hsolve hconverged
  rw [hbuild]
  exact ⟨oracle, given, solution, horacle, hgiven, hobjective, hcertified⟩

/-- The rolls of a plan that converged are within the tolerance of the fewest over all patterns: with
an engine that keeps strong duality, no cutting needs less than its rolls divided by one and the
tolerance. -/
theorem rolls_le_of_converged {ε : Type} {stock : CuttingStock} {engine : Engine ε Rat}
    {problem : Problem ε} {method : Datum} {budget solveInteger verbose : Datum}
    {tolerance feasibility : Rat} {patience fuel room : Nat} {after : Cover ε Rat}
    {plan : CuttingPlan Rat} {rolls : Rat}
    (hduality : ∀ cover, Cover.GrowsTo engine
      (Cover.build engine problem stock.items stock.problemName true).1 cover →
        cover.StronglyDual engine stock.demands)
    (hsolve : stock.solve engine problem method
      (GenerationSettings.make budget tolerance solveInteger verbose patience) feasibility fuel room =
        (after, .ok plan))
    (hconverged : plan.converged = true) (hrolls : plan.rolls = some rolls)
    {cutting : List (List Nat × Rat)} (hcutting : stock.IsCutting cutting) :
    rolls ≤ (1 + tolerance) * (cutting.map (·.2)).sum := by
  obtain ⟨oracle, given, solution, horacle, hgiven, hobjective, hcertified⟩ :=
    certificate_of_plan hsolve hconverged
  obtain ⟨cover, _, offer, hgrows, hreports, hprice, hdeclined⟩ := hcertified
  have htolerance : given.tolerance = tolerance := by
    obtain ⟨_, -, hgiven⟩ := bind_eq_ok.mp hgiven
    obtain ⟨_, -, hgiven⟩ := bind_eq_ok.mp hgiven
    rw [← Except.ok.inj hgiven]
  have hbest := oracle_offersBest (le_refl 0) horacle hprice
  have hreduced := Offer.neg_le_of_not_improving hdeclined
  rw [htolerance, hbest.reducedCost_eq] at hreduced
  rw [← hobjective, hrolls] at hreports
  obtain ⟨hnonneg, rfl⟩ := hduality cover hgrows rolls solution.duals hreports
  refine weigh_demands_le_mul hnonneg (fun counts hcounts => ?_) hcutting
  have hworth := hbest.best counts hcounts
  have hunit : (PricingSettings.standard : PricingSettings Rat).unitCost = 1 := rfl
  rw [hunit] at hreduced
  linarith

/-- An engine for one row with a demand and columns that cost one: the column with the greatest
count serves the whole demand. -/
def oneRow (demand : Nat) : Engine (Nat × Datum) Rat where
  create _ _ := ((0, .null), .ok ())
  addVariable best _ := .ok best
  addRow best _ _ := (best, .ok ())
  addCoefficient best _ column amount :=
    (if best.1 < amount.num.toNat then (amount.num.toNat, column) else best, .ok ())
  setInteger best _ _ := .ok best
  solve best := (best, .ok (if best.1 = 0 then .infeasible else .optimal))
  objective best := .ok (some (demand / best.1))
  dual best _ := .ok (1 / best.1)
  primal best column := .ok (if column.same best.2 then demand / best.1 else 0)

/-- The engine for one row keeps strong duality. -/
theorem stronglyDual_oneRow (demand : Nat) {cover : Cover (Nat × Datum) Rat}
    (hrows : cover.rows.length = 1) : cover.StronglyDual (oneRow demand) [demand] := by
  rintro objective duals ⟨best, -, hobjective, hduals⟩
  obtain ⟨row, hrow⟩ := List.length_eq_one_iff.mp hrows
  rw [hrow] at hduals
  obtain rfl : duals = [1 / (best.1 : Rat)] := (Except.ok.inj hduals).symm
  obtain rfl : (demand : Rat) / best.1 = objective := Option.some.inj (Except.ok.inj hobjective)
  refine ⟨fun dual hdual => ?_, ?_⟩
  · rw [List.mem_singleton.mp hdual]
    positivity
  · rw [weigh_cons, weigh_nil_right]
    ring

/-- One item, cut once from a roll at first and twice then: the rolls of the plan are half the
demand, and no cutting needs less by more than the tolerance. -/
theorem rolls_le_on_one_item :
    ∃ (stock : CuttingStock) (after : Cover (Nat × Datum) Rat) (plan : CuttingPlan Rat),
      stock.solve (oneRow 3) { engine := (0, .null) } (.text "spprc")
        (GenerationSettings.make (.int 9) (1 / 10) (.flag false) (.flag false)) 0 9 =
          (after, .ok plan) ∧
      plan.converged = true ∧ plan.rolls = some (3 / 2) ∧ stock.IsCutting [([2], 3 / 2)] ∧
      (3 / 2 : Rat) ≤ (1 + 1 / 10) * ([([2], 3 / 2)].map fun lot : List Nat × Rat => lot.2).sum := by
  let stock : CuttingStock := ⟨[⟨2, 3, .null, by decide⟩], 5, .null, by decide, by decide⟩
  have hcutting : stock.IsCutting [([2], 3 / 2)] := by
    refine ⟨fun lot hlot => ?_, fun lot hlot => ?_, fun item demand hdemand => ?_⟩
    · rw [List.mem_singleton.mp hlot]
      exact ⟨rfl, by decide +kernel⟩
    · rw [List.mem_singleton.mp hlot]
      decide +kernel
    · cases item with
      | zero =>
        obtain rfl : 3 = demand := Option.some.inj hdemand
        decide +kernel
      | succ item => cases hdemand
  have hrows : (Cover.build (oneRow 3) { engine := (0, .null) } stock.items stock.problemName
      true).1.rows.length = 1 := by decide +kernel
  have hplan : (stock.solve (oneRow 3) { engine := (0, .null) } (.text "spprc")
      (GenerationSettings.make (.int 9) (1 / 10) (.flag false) (.flag false)) 0 9).2.toOption.map
        (fun plan => (plan.converged, plan.rolls)) = some (true, some (3 / 2)) := by
    decide +kernel
  rcases hsolve : stock.solve (oneRow 3) { engine := (0, .null) } (.text "spprc")
    (GenerationSettings.make (.int 9) (1 / 10) (.flag false) (.flag false)) 0 9 with
    ⟨after, fault | plan⟩
  · rw [hsolve] at hplan
    cases hplan
  · rw [hsolve] at hplan
    simp only [Except.toOption, Option.map_some, Option.some.injEq, Prod.mk.injEq] at hplan
    obtain ⟨hconverged, hrolls⟩ := hplan
    refine ⟨stock, after, plan, hsolve, hconverged, hrolls, hcutting, ?_⟩
    refine rolls_le_of_converged (fun cover hgrows => ?_) hsolve hconverged hrolls hcutting
    exact stronglyDual_oneRow 3 (by rw [hgrows.rows_eq, hrows])

end CuttingStock

end PatternCovering
