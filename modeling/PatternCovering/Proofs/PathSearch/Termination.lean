import PatternCovering.Proofs.PathSearch.Answer
import PatternCovering.Proofs.PathSearch.Distinct
import PatternCovering.Proofs.PathSearch.Steady

/-!
# Searches that end

On rationals no step of a search fails. Where the number of labels is bounded, a search ends by itself
if it is given enough visits, and gives an offer. The number of labels is bounded where the walks that
stay inside the windows are bounded in length.
-/

namespace PatternCovering

namespace PathSearch

variable {search : PathSearch Int Rat}

/-- All amounts of a search on rationals are numbers. -/
theorem WellFormed.isNumeric_rat (hwell : search.WellFormed) (costs : Array Rat) :
    search.IsNumeric costs where
  well := hwell
  network := ⟨fun _ _ => trivial, fun _ _ _ _ => trivial,
    fun _ _ => ⟨fun _ _ => trivial, fun _ _ => trivial⟩⟩
  costs _ _ := trivial
  full pool := by
    by_cases hlimit : 0 < search.settings.maxLabels
    · exact ⟨decide (search.settings.maxLabels ≤ pool.numCreated),
        by simp [full, hlimit, bind, Except.bind]⟩
    · exact ⟨false, by simp [full, hlimit, bind, Except.bind, pure, Except.pure]⟩

variable {duals : List Rat} {most : Nat}

/-- A search that never has more labels than a number, given as many visits, ends without a fault,
always in the same state. -/
theorem exists_explore_of_reached (hwell : search.WellFormed)
    (hlength : (duals.length : Int) = search.numItems)
    (hmost : ∀ config, Reached search (search.network.arcs.map (Arc.adjustedCost duals)) config →
      config.state.pool.numCreated ≤ most) :
    ∃ state, ∀ fuel, most ≤ fuel → search.explore fuel duals = .ok state := by
  have hcosts := hwell.arcCosts_eq hlength
  generalize search.network.arcs.map (Arc.adjustedCost duals) = costs at hcosts hmost
  have hnumeric := hwell.isNumeric_rat costs
  obtain ⟨final, -, -, -, hends⟩ := exists_explore_of_numCreated_le hnumeric hcosts fun fuel => by
    obtain ⟨last, hsteady, -⟩ := (steady_start hwell).run hnumeric fuel
    exact hmost ⟨.idle, search.run costs fuel search.start⟩ (moves_run fuel hsteady.fine)
  exact ⟨final, fun fuel hfuel => (hends fuel hfuel).2⟩

/-- A search that never has more labels than a number, which is no limit of its own, gives an offer
when it is given as many visits, always the same one. -/
theorem exists_price_of_reached (hwell : search.WellFormed)
    (hlimit : search.settings.maxLabels ≤ 0) (hlength : (duals.length : Int) = search.numItems)
    (hmost : ∀ config, Reached search (search.network.arcs.map (Arc.adjustedCost duals)) config →
      config.state.pool.numCreated ≤ most) :
    ∃ offer, ∀ fuel, most ≤ fuel → (search.price fuel duals).2 = .ok offer := by
  obtain ⟨state, hexplore⟩ := exists_explore_of_reached hwell hlength hmost
  obtain ⟨costs, hcosts, hreached, -⟩ := reached_of_explore (hexplore most (Nat.le_refl most))
  rw [hwell.arcCosts_eq hlength, Except.ok.injEq] at hcosts
  subst hcosts
  obtain ⟨found, hfound, -⟩ := hreached.offerAt_cases hwell hlength
    (hreached.stop_eq_none (full_of_nonpos hlimit))
  refine ⟨{ found with
    numCreated := state.pool.numCreated
    numDominated := state.pool.numDominated
    numVisits := state.visits }, fun fuel hfuel => ?_⟩
  simp [price, priceWithLabels, readDuals_eq_ok hlength, priceReal, hexplore fuel hfuel, hfound,
    Except.map]

/-- Where the walks that stay inside the windows are bounded in length and labels are not, a search
that is given enough visits gives an offer, always the same one for the same duals. How many visits
are enough does not depend on the duals. -/
theorem exists_price (hwell : search.WellFormed) (hlimit : search.settings.maxLabels ≤ 0)
    {bound : Nat}
    (hbound : ∀ walk (node : Nat), search.network.IsWalk search.source walk node →
      search.network.StaysWithin walk → walk.length ≤ bound) :
    ∃ limit, ∀ duals : List Rat, (duals.length : Int) = search.numItems →
      ∃ offer, ∀ fuel, limit ≤ fuel → (search.price fuel duals).2 = .ok offer := by
  refine ⟨(finite_arcLists search.network bound).toFinset.card, fun duals hlength =>
    exists_price_of_reached hwell hlimit hlength fun config h => ?_⟩
  refine h.numCreated_le hwell fun path node used cost harrives => ?_
  obtain ⟨hwalk, hstays, -⟩ := hwell.arrives_iff.mp harrives
  exact hbound path node hwalk hstays

end PathSearch

end PatternCovering
