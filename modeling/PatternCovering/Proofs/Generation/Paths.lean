import PatternCovering.Proofs.Generation.Trace
import PatternCovering.Proofs.PathSearch.Dominance

/-!
# What a converged run says about paths

A run over the paths of a network converges as soon as an offer does not improve. If the search for
this offer has gone to its end, no route improves under the latest duals. If the limit on labels
stopped it, the offer is only the best one found so far, and the run takes it all the same: it may
then report that it converged although a route improves.
-/

namespace PatternCovering

namespace Generation

variable {ε : Type} {generation : Generation ε Unit Rat}

/-- A run that ended as optimal has declined the offer for its latest duals. -/
theorem exists_declined_of_optimal {σ : Type} {generation : Generation ε σ Rat}
    {cover : Cover ε Rat} {oracle : σ} {after : Progress ε σ Rat} {outcome : Outcome Rat}
    (h : generation.solve cover oracle = (after, .ok outcome))
    (hoptimal : outcome.status = .optimal) :
    ∃ solution state offer, after.solution = some solution ∧
      (generation.oracle.price state solution.duals).2.2 = .ok offer ∧
      -generation.settings.tolerance ≤ offer.reducedCost := by
  obtain ⟨progress, status, found, hloop, hfound, ⟨_, _, rfl⟩, _, rfl⟩ := exists_loop_of_solve h
  obtain ⟨used, -, hfound⟩ := bind_eq_ok.mp hfound
  obtain rfl := Except.ok.inj hfound
  obtain rfl : status = .optimal := hoptimal
  obtain ⟨solution, hsolution, _, state, offer, -, -, hprice, hdeclined⟩ :=
    certificate_of_loop hloop Cover.GrowsTo.refl
  exact ⟨solution, state, offer, hsolution, hprice, Offer.neg_le_of_not_improving hdeclined⟩

/-- If a run over the paths of a network without negative consumption whose lower bounds are at most
zero ends as optimal, and the search for the last offer was not stopped by the limit on labels, then
no route improves under the latest duals. A search is only ever stopped if there is a limit. -/
theorem no_route_improves_of_optimal {network : Network Int Rat} (hbuilt : network.Built)
    (hconsumption : ∀ arc ∈ network.arcs, ∀ amount ∈ arc.consumption, 0 ≤ amount)
    (hlower : ∀ window ∈ network.windows, ∀ low ∈ window.lower, low ≤ 0)
    {numItems : Option Int} {pricing : PricingSettings Rat} {search : PathSearch Int Rat}
    (hmake : PathSearch.make network numItems pricing = .ok search) {fuel : Nat}
    (horacle : generation.oracle = search.oracle fuel) {cover : Cover ε Rat}
    {after : Progress ε Unit Rat} {outcome : Outcome Rat}
    (hsolve : generation.solve cover () = (after, .ok outcome))
    (hoptimal : outcome.status = .optimal) :
    ∃ solution offer, after.solution = some solution ∧
      (search.price fuel solution.duals).2 = .ok offer ∧
      (offer.status = .iterationLimit → 0 < pricing.maxLabels) ∧
      (offer.status ≠ .iterationLimit → ∀ walk, network.IsRoute walk →
        ¬ pricing.unitCost + Network.adjustedCost solution.duals walk <
          -generation.settings.tolerance) := by
  obtain ⟨solution, _, offer, hsolution, hprice, hdeclined⟩ :=
    exists_declined_of_optimal hsolve hoptimal
  rw [horacle] at hprice
  obtain ⟨hwell, rfl, rfl⟩ := PathSearch.wellFormed_of_make hbuilt.wellFormed hmake
  have hsafe := Network.dominanceSafe_of_nonneg hconsumption hlower
  refine ⟨solution, offer, hsolution, hprice, fun hstopped => ?_, fun hended walk hwalk => ?_⟩
  · by_contra hlimit
    exact PathSearch.status_ne_of_price (not_lt.mp hlimit) hprice hstopped
  · have hexact := PathSearch.ended_isExact hwell (hwell.standsIn_noWorse hsafe)
      (fun _ _ h => h.1) hprice hended
    have hleast := (hexact.optimal ⟨walk, hwalk⟩).2.2 ⟨walk, hwalk, rfl⟩
    exact not_lt.mpr (hdeclined.trans hleast)

/-- A run over paths, with a recorder for an engine. -/
def recorded (search : PathSearch Int Rat) : Generation (Recorder Rat) Unit Rat where
  engine := Recorder.engine
  oracle := search.oracle 9
  settings := { budget := .int 9, tolerance := 0 }
  feasibility := 0

/-- How a recorded run over the paths of a network ends and its latest duals, nothing if it fails. -/
def ended? (network : Except Fault (Network Int Rat)) (pricing : PricingSettings Rat)
    (cover : Cover (Recorder Rat) Rat) : Option (GenerationStatus × List Rat) :=
  let checked := do
    let search ← PathSearch.make (← network) none pricing
    cover.checkOracle (search.oracle 9)
    return search
  match checked with
  | .error _ => none
  | .ok search =>
    match (recorded search).solve cover () with
    | (after, .ok outcome) => after.solution.map fun solution => (outcome.status, solution.duals)
    | (_, .error _) => none

/-- Behind the end of a recorded run stand a network, a search on it and the run. -/
theorem of_ended? {network : Except Fault (Network Int Rat)} {pricing : PricingSettings Rat}
    {cover : Cover (Recorder Rat) Rat} {status : GenerationStatus} {duals : List Rat}
    (h : ended? network pricing cover = some (status, duals)) :
    ∃ built search after outcome solution, network = .ok built ∧
      PathSearch.make built none pricing = .ok search ∧
      cover.checkOracle (search.oracle 9) = .ok () ∧
      (recorded search).solve cover () = (after, .ok outcome) ∧ outcome.status = status ∧
      after.solution = some solution ∧ solution.duals = duals := by
  simp only [ended?] at h
  split at h
  · cases h
  · next search hsearch =>
    obtain ⟨built, hbuilt, hsearch⟩ := bind_eq_ok.mp hsearch
    obtain ⟨made, hmake, hsearch⟩ := bind_eq_ok.mp hsearch
    obtain ⟨_, hcheck, hsearch⟩ := bind_eq_ok.mp hsearch
    obtain rfl := Except.ok.inj hsearch
    split at h
    · next after outcome hsolve =>
      obtain ⟨solution, hsolution, hsame⟩ := Option.map_eq_some_iff.mp h
      obtain ⟨rfl, rfl⟩ := Prod.mk.inj hsame
      exact ⟨built, made, after, outcome, solution, hbuilt, hmake, hcheck, hsolve, rfl, hsolution,
        rfl⟩
    · cases h

/-- A network of two arcs in a row, each of which covers the item. -/
def twoArcs : Except Fault (Network Int Rat) :=
  Network.assemble [⟨some 0, some 10, .null⟩] 3 0 2 [(0, 1, 0, [1], some 0), (1, 2, 0, [1], some 0)]

/-- The network of two arcs consumes nothing negative, and its lower bound is zero. -/
theorem of_twoArcs {network : Network Int Rat} (h : twoArcs = .ok network) :
    network.Built ∧ (∀ arc ∈ network.arcs, ∀ amount ∈ arc.consumption, 0 ≤ amount) ∧
      ∀ window ∈ network.windows, ∀ low ∈ window.lower, low ≤ 0 := by
  have hnonneg : (twoArcs.toOption.all fun network =>
      network.arcs.all (·.consumption.all (0 ≤ ·)) &&
        network.windows.all (·.lower.all (· ≤ 0))) = true := by decide +kernel
  rw [h] at hnonneg
  simp only [Except.toOption, Option.all_some, Bool.and_eq_true, Array.all_eq_true_iff_forall_mem,
    List.all_eq_true, Option.all_eq_true, decide_eq_true_eq] at hnonneg
  exact ⟨Network.built_of_assemble h, hnonneg⟩

/-- With a limit of five labels the search along two arcs goes to its end: no route improves. -/
theorem no_route_improves_on_two_arcs :
    ∃ (network : Network Int Rat) (search : PathSearch Int Rat)
      (after : Progress (Recorder Rat) Unit Rat) (outcome : Outcome Rat),
      PathSearch.make network none ⟨1, 5, true⟩ = .ok search ∧
      (recorded search).solve (recordedCover (1 / 2)) () = (after, .ok outcome) ∧
      outcome.status = .optimal ∧
      ∀ walk, network.IsRoute walk → ¬ 1 + Network.adjustedCost [1 / 2] walk < 0 := by
  have hended : ended? twoArcs ⟨1, 5, true⟩ (recordedCover (1 / 2)) = some (.optimal, [1 / 2]) := by
    decide +kernel
  have hanswer : PathSearch.answer? twoArcs ⟨1, 5, true⟩ 9 [1 / 2] = some (.optimal, 0) := by
    decide +kernel
  obtain ⟨network, search, after, outcome, solution, hnetwork, hmake, -, hsolve, hoptimal, hsolution,
    hduals⟩ := of_ended? hended
  obtain ⟨same, again, answer, hsame, hagain, hanswered, hstatus, -⟩ := PathSearch.of_answer? hanswer
  obtain rfl := Except.ok.inj (hnetwork.symm.trans hsame)
  obtain rfl := Except.ok.inj (hmake.symm.trans hagain)
  obtain ⟨hbuilt, hconsumption, hlower⟩ := of_twoArcs hnetwork
  obtain ⟨latest, offer, hlatest, hprice, -, hnone⟩ := no_route_improves_of_optimal hbuilt
    hconsumption hlower hmake rfl hsolve hoptimal
  obtain rfl := Option.some.inj (hsolution.symm.trans hlatest)
  rw [hduals] at hprice hnone
  obtain rfl := Except.ok.inj (hanswered.symm.trans hprice)
  refine ⟨network, search, after, outcome, hmake, hsolve, hoptimal, fun walk hwalk => ?_⟩
  have hended : answer.status ≠ .iterationLimit := by
    rw [hstatus]
    decide
  exact hnone hended walk hwalk

/-- With a limit of one label the search ends at its first label. The run reports that it converged,
although the only route improves. -/
theorem route_improves_although_optimal :
    ∃ network : Network Int Rat, network.Built ∧
      (∀ arc ∈ network.arcs, ∀ amount ∈ arc.consumption, 0 ≤ amount) ∧
      (∀ window ∈ network.windows, ∀ low ∈ window.lower, low ≤ 0) ∧
      ∃ (search : PathSearch Int Rat) (after : Progress (Recorder Rat) Unit Rat)
        (outcome : Outcome Rat) (solution : CoverSolution Rat) (walk : List (Arc Int Rat)),
        PathSearch.make network none ⟨1, 1, true⟩ = .ok search ∧
        (recordedCover 1).checkOracle (search.oracle 9) = .ok () ∧
        (recorded search).solve (recordedCover 1) () = (after, .ok outcome) ∧
        outcome.status = .optimal ∧ after.solution = some solution ∧ network.IsRoute walk ∧
        1 + Network.adjustedCost solution.duals walk < -(recorded search).settings.tolerance := by
  have hended : ended? twoArcs ⟨1, 1, true⟩ (recordedCover 1) = some (.optimal, [1]) := by
    decide +kernel
  have hanswer : PathSearch.answer? twoArcs ⟨1, 0, true⟩ 9 [1] = some (.optimal, -1) := by
    decide +kernel
  obtain ⟨network, search, after, outcome, solution, hnetwork, hmake, hcheck, hsolve, hoptimal,
    hsolution, hduals⟩ := of_ended? hended
  obtain ⟨same, free, answer, hsame, hfree, hanswered, hstatus, hcost⟩ :=
    PathSearch.of_answer? hanswer
  obtain rfl := Except.ok.inj (hnetwork.symm.trans hsame)
  obtain ⟨hbuilt, hconsumption, hlower⟩ := of_twoArcs hnetwork
  -- without a limit the offer is that of a route
  obtain ⟨hwell, hfreeNetwork, hfreeSettings⟩ :=
    PathSearch.wellFormed_of_make hbuilt.wellFormed hfree
  have hroute := PathSearch.price_isAnswer hwell (by rw [hfreeSettings]) hanswered
  rw [hfreeNetwork, hfreeSettings] at hroute
  rcases hroute with ⟨hnothing, -⟩ | ⟨-, walk, hwalk, hworth⟩
  · rw [hstatus] at hnothing
    cases hnothing
  · refine ⟨network, hbuilt, hconsumption, hlower, search, after, outcome, solution, walk, hmake,
      hcheck, hsolve, hoptimal, hsolution, hwalk, ?_⟩
    rw [hduals, ← hworth, hcost]
    simp [recorded]

end Generation

end PatternCovering
