import PatternCovering.Proofs.CuttingStock.Stages

/-!
# Two oracles, one optimum

The routes through the stages of an instance are the patterns that fit into a roll, and the adjusted
cost of a route is the value of its pattern, negated. A search of the stages and a table over the
widths therefore look for the same optimum. The search ends because its walks are bounded, and both
oracles offer a pattern that no other pattern is worth more than.
-/

namespace PatternCovering

/-- Best offers under the same duals have the same reduced cost. -/
theorem OffersBest.reducedCost_unique {widths : List Nat} {capacity : Nat} {unitCost : Rat}
    {duals : List Rat} {offer other : Offer Rat}
    (h : OffersBest widths capacity unitCost duals offer)
    (hother : OffersBest widths capacity unitCost duals other) :
    offer.reducedCost = other.reducedCost := by
  have hle := hother.best _ h.pattern
  have hge := h.best _ hother.pattern
  rw [h.reducedCost_eq, hother.reducedCost_eq, le_antisymm hle hge]

/-- A best offer fits into the capacity. -/
theorem OffersBest.fits {widths : List Nat} {capacity : Nat} {unitCost : Rat} {duals : List Rat}
    {offer : Offer Rat} (h : OffersBest widths capacity unitCost duals offer) :
    offer.column.fits (rationals widths) capacity = .ok true := by
  rw [Column.fits_rat, decide_eq_true h.pattern.2]

/-- What the oracle of a knapsack offers is what the knapsack offers. -/
theorem Knapsack.of_oracle_price {knapsack : Knapsack Rat} {room : Nat} {state : Unit}
    {duals : List Rat} {offer : Offer Rat}
    (h : ((knapsack.oracle room).price state duals).2.2 = .ok offer) :
    ∃ events, knapsack.price duals = .ok (offer, events) := by
  simp only [Knapsack.oracle] at h
  rcases hprice : knapsack.priceInRoom room duals with fault | ⟨found, events⟩
  · simp [hprice] at h
  · simp only [hprice, Except.ok.injEq] at h
    exact ⟨events, h ▸ knapsack.price_of_priceInRoom hprice⟩

/-- Where there is room for its table, the oracle of a knapsack answers as the knapsack does. -/
theorem Knapsack.oracle_price_eq {knapsack : Knapsack Rat} {room : Nat} {duals : List Rat}
    {offer : Offer Rat} {events : List Event} (hroom : knapsack.requireRoom room = .ok ())
    (hprice : knapsack.price duals = .ok (offer, events)) :
    (knapsack.oracle room).price () duals = ((), events, .ok offer) := by
  simp only [Knapsack.oracle, knapsack.priceInRoom_eq hroom, hprice]

namespace CuttingStock

variable {stock : CuttingStock} {settings : PricingSettings Rat} {duals : List Rat}
  {offer : Offer Rat}

/-- There is a width for each item. -/
theorem length_widths (stock : CuttingStock) : stock.widths.length = stock.numItems := by
  simp [widths, numItems]

/-- A pattern that fits into a roll is cut along a route. -/
theorem isRoute_cuts {counts : List Nat} (h : IsPattern stock.widths stock.capacity counts) :
    stock.stageNetwork.IsRoute (cuts 0 stock.widths counts) := by
  have hwalk : stock.stageNetwork.IsWalk (0 : Nat) (cuts 0 stock.widths counts)
      (0 + stock.widths.length : Nat) :=
    isWalk_cuts h.1 fun place width hwidth => by rwa [Nat.zero_add]
  have harcs : ∀ arc ∈ cuts 0 stock.widths counts, arc ∈ stock.stageNetwork.arcs :=
    fun arc harc => hwalk.mem_arcs harc
  rw [Nat.zero_add, length_widths] at hwalk
  refine ⟨(0 : Nat), rfl, (stock.numItems : Nat), rfl, hwalk, ?_⟩
  rw [staysWithin_iff harcs, used_eq_sum harcs, sum_dualOf_cuts h.1 (by simp), List.drop_zero]
  exact h.2

/-- The adjusted cost of cutting a pattern is its value, negated. -/
theorem adjustedCost_cuts {counts : List Nat} (h : IsPattern stock.widths stock.capacity counts)
    (hlength : duals.length = stock.numItems) :
    Network.adjustedCost duals (cuts 0 stock.widths counts) = -weigh duals counts := by
  obtain ⟨source, -, sink, -, hwalk, -⟩ := isRoute_cuts h
  rw [Network.adjustedCost_eq_sub,
    sum_cost_eq_zero fun arc harc => hwalk.mem_arcs harc,
    sum_dualOf_cuts h.1 (by rw [hlength, Nat.zero_add, length_widths]), List.drop_zero, zero_sub]

/-- The offer of a cheapest route is that of a best pattern. -/
theorem offersBest_of_offers {walk : List (Arc Int Rat)}
    (h : PathSearch.Offers (stock.stageSearch settings) duals walk offer)
    (hlength : duals.length = stock.numItems)
    (hleast : ∀ other, stock.stageNetwork.IsRoute other →
      Network.adjustedCost duals walk ≤ Network.adjustedCost duals other) :
    OffersBest stock.widths stock.capacity settings.unitCost duals offer := by
  obtain ⟨source, -, sink, -, hwalk, hstays⟩ := h.route
  have harcs : ∀ arc ∈ walk, arc ∈ stock.stageNetwork.arcs :=
    fun arc harc => hwalk.mem_arcs harc
  have hvalue : Network.adjustedCost duals walk = -weigh duals offer.column.counts := by
    rw [Network.adjustedCost_eq_sub, sum_cost_eq_zero harcs, h.weigh_counts, zero_sub]
  refine ⟨h.status_eq, ?_, ⟨?_, ?_⟩, ?_, fun counts hcounts => ?_⟩
  · rw [h.cost_eq, sum_cost_eq_zero harcs, add_zero]
    rfl
  · rw [h.length_counts, length_widths]
    rfl
  · rw [h.weigh_counts, ← used_eq_sum harcs]
    exact (staysWithin_iff harcs).mp hstays
  · rw [h.reducedCost_eq, hvalue, sub_eq_add_neg]
    rfl
  · have hle := hleast _ (isRoute_cuts hcounts)
    rw [hvalue, adjustedCost_cuts hcounts hlength] at hle
    linarith

/-- A pattern always exists: the one without any item. -/
theorem isPattern_zero (stock : CuttingStock) :
    IsPattern stock.widths stock.capacity (List.replicate stock.widths.length 0) := by
  refine ⟨List.length_replicate, ?_⟩
  rw [weigh_replicate_zero]
  exact Nat.cast_nonneg _

/-- A price that the search of an instance returns is that of a best pattern, whether dominated
labels are dropped or not. -/
theorem stageSearch_offersBest (hitems : 0 < stock.numItems) (hlimit : settings.maxLabels ≤ 0)
    {fuel : Nat} (h : ((stock.stageSearch settings).price fuel duals).2 = .ok offer) :
    OffersBest stock.widths stock.capacity settings.unitCost duals offer := by
  have hwell := wellFormed_stageSearch hitems settings
  have hlength : duals.length = stock.numItems := Int.ofNat_inj.mp (PathSearch.of_price h).1
  rcases PathSearch.ended_exact hwell
    (hwell.standsIn_noWorse (dominanceSafe_stageNetwork stock)) (fun _ _ h => h.1) h
    (PathSearch.status_ne_of_price hlimit h) with ⟨-, hnone⟩ | ⟨walk, hwalk, hleast⟩
  · exact absurd (isRoute_cuts stock.isPattern_zero) (hnone _)
  · exact offersBest_of_offers hwalk hlength hleast

/-- The search of an instance ends, always with the same offer for the same duals, once it may take
enough visits. -/
theorem exists_price_stageSearch (hitems : 0 < stock.numItems) (hlimit : settings.maxLabels ≤ 0) :
    ∃ limit, ∀ duals : List Rat, duals.length = stock.numItems → ∃ offer, ∀ fuel, limit ≤ fuel →
      ((stock.stageSearch settings).price fuel duals).2 = .ok offer := by
  have hbound : ∀ walk (node : Nat), stock.stageNetwork.IsWalk (0 : Nat) walk node →
      stock.stageNetwork.StaysWithin walk → walk.length ≤ stock.capacity + stock.numItems :=
    fun walk node hwalk hstays => length_le_of_staysWithin hwalk hstays
  obtain ⟨limit, hprice⟩ :=
    PathSearch.exists_price (wellFormed_stageSearch hitems settings) hlimit hbound
  exact ⟨limit, fun duals hlength => hprice duals (Int.ofNat_inj.mpr hlength)⟩

/-- The offer of an oracle of an instance is that of a best pattern, whichever method it uses. -/
theorem oracle_offersBest {method : Datum} {fuel room : Nat} {oracle : Oracle Unit Rat}
    (hlimit : settings.maxLabels ≤ 0) (horacle : stock.oracle method settings fuel room = .ok oracle)
    (h : (oracle.price () duals).2.2 = .ok offer) :
    OffersBest stock.widths stock.capacity settings.unitCost duals offer := by
  simp only [CuttingStock.oracle] at horacle
  split at horacle
  · rw [← Except.ok.inj horacle] at h
    obtain ⟨events, hprice⟩ := Knapsack.of_oracle_price h
    obtain ⟨read, hread, -⟩ := bind_eq_ok.mp hprice
    have hlength : duals.length = stock.widths.length :=
      Int.ofNat_inj.mp (readDuals_rat hread).1
    obtain ⟨best, others, hbest, hoffers⟩ := (stock.knapsack settings).price_best hlength
    rw [hbest, Except.ok.injEq, Prod.mk.injEq] at hprice
    exact hprice.1 ▸ hoffers
  · obtain ⟨search, hsearch, hsame⟩ := bind_eq_ok.mp horacle
    rw [← Except.ok.inj hsame] at h
    have hitems : 0 < stock.numItems := by
      rw [Nat.pos_iff_ne_zero]
      intro hnone
      obtain ⟨network, hnetwork, -⟩ := bind_eq_ok.mp hsearch
      obtain ⟨window, -, hnetwork⟩ := bind_eq_ok.mp hnetwork
      simp [hnone] at hnetwork
    rw [pathSearch_eq hitems, Except.ok.injEq] at hsearch
    subst hsearch
    exact stageSearch_offersBest hitems hlimit h
  · cases horacle

/-- Whether the oracle of the given method, with room for a table of so many widths, answers duals
with an offer once it may take enough visits. -/
def Answers (stock : CuttingStock) (method : String) (settings : PricingSettings Rat) (room : Nat)
    (duals : List Rat) (offer : Offer Rat) : Prop :=
  ∃ limit, ∀ fuel, limit ≤ fuel → ∃ oracle,
    stock.oracle (.text method) settings fuel room = .ok oracle ∧
      (oracle.price () duals).2.2 = .ok offer

/-- The search always answers, and needs no room. -/
theorem exists_answers_search (hitems : 0 < stock.numItems) (hlimit : settings.maxLabels ≤ 0)
    (hlength : duals.length = stock.numItems) :
    ∃ offer, ∀ room, stock.Answers "spprc" settings room duals offer := by
  obtain ⟨limit, hends⟩ := exists_price_stageSearch hitems hlimit
  obtain ⟨offer, hprice⟩ := hends duals hlength
  refine ⟨offer, fun room => ⟨limit, fun fuel hfuel => ⟨(stock.stageSearch settings).oracle fuel, ?_,
    hprice fuel hfuel⟩⟩⟩
  simp only [CuttingStock.oracle, pathSearch_eq hitems]
  rfl

/-- The knapsack always has a price, and answers with it if there is room for its table. -/
theorem exists_answers_knapsack (hlength : duals.length = stock.numItems) :
    ∃ offer events, (stock.knapsack settings).price duals = .ok (offer, events) ∧
      OffersBest stock.widths stock.capacity settings.unitCost duals offer ∧
      ∀ room, (stock.knapsack settings).requireRoom room = .ok () →
        stock.Answers "knapsack" settings room duals offer := by
  have hmatch : duals.length = stock.widths.length := by rw [length_widths, hlength]
  obtain ⟨offer, events, hprice, hbest⟩ := (stock.knapsack settings).price_best hmatch
  refine ⟨offer, events, hprice, hbest, fun room hroom => ⟨0, fun fuel _ =>
    ⟨(stock.knapsack settings).oracle room, rfl, ?_⟩⟩⟩
  rw [Knapsack.oracle_price_eq hroom hprice]

/-- The two oracles agree: the search answers all duals, the knapsack does if there is room for its
table, and both offer patterns that fit into a roll, at the same reduced cost. -/
theorem oracles_agree (hitems : 0 < stock.numItems) (hlimit : settings.maxLabels = 0)
    (hlength : duals.length = stock.numItems) :
    ∃ found filled : Offer Rat,
      (∀ room, stock.Answers "spprc" settings room duals found) ∧
      (∃ events, (stock.knapsack settings).price duals = .ok (filled, events)) ∧
      (∀ room, (stock.knapsack settings).requireRoom room = .ok () →
        stock.Answers "knapsack" settings room duals filled) ∧
      found.status = .optimal ∧ filled.status = .optimal ∧
      found.reducedCost = filled.reducedCost ∧
      found.column.cost = settings.unitCost ∧ filled.column.cost = settings.unitCost ∧
      found.column.fits (rationals stock.widths) stock.capacity = .ok true ∧
      filled.column.fits (rationals stock.widths) stock.capacity = .ok true := by
  have hnolimit : settings.maxLabels ≤ 0 := le_of_eq hlimit
  obtain ⟨found, hfound⟩ := exists_answers_search hitems hnolimit hlength
  obtain ⟨limit, hanswer⟩ := hfound 0
  obtain ⟨oracle, horacle, hoffer⟩ := hanswer limit (Nat.le_refl limit)
  have hbest := oracle_offersBest hnolimit horacle hoffer
  obtain ⟨filled, events, hprice, hfilled, hanswers⟩ := exists_answers_knapsack hlength
  exact ⟨found, filled, hfound, ⟨events, hprice⟩, hanswers, hbest.status_eq,
    hfilled.status_eq, hbest.reducedCost_unique hfilled, hbest.cost_eq, hfilled.cost_eq, hbest.fits,
    hfilled.fits⟩

/-- Two items, one of a negative dual: both oracles answer, with a pattern that leaves it out, where
there is room for the eight widths from zero to seven. -/
theorem oracles_agree_on_two_items :
    ∃ stock : CuttingStock, stock.widths = [2, 3] ∧ stock.capacity = 7 ∧
      ∃ found filled : Offer Rat, stock.Answers "spprc" ⟨1, 0, true⟩ 8 [1 / 2, -1] found ∧
        stock.Answers "knapsack" ⟨1, 0, true⟩ 8 [1 / 2, -1] filled ∧
        found.status = .optimal ∧ filled.status = .optimal ∧
        found.reducedCost = filled.reducedCost ∧
        found.column.cost = 1 ∧ filled.column.cost = 1 ∧
        found.column.fits [2, 3] 7 = .ok true ∧ filled.column.fits [2, 3] 7 = .ok true := by
  let stock : CuttingStock :=
    ⟨[⟨2, 4, .null, by decide⟩, ⟨3, 1, .null, by decide⟩], 7, .null, by decide, by decide⟩
  obtain ⟨found, filled, hfound, -, hfilled, hrest⟩ :=
    @oracles_agree stock ⟨1, 0, true⟩ [1 / 2, -1] (by decide) rfl rfl
  exact ⟨stock, rfl, rfl, found, filled, hfound 8, hfilled 8 rfl, hrest⟩

end CuttingStock

end PatternCovering
