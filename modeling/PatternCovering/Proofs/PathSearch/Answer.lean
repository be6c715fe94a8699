import PatternCovering.Proofs.PathSearch.Cheapest
import PatternCovering.Proofs.PathSearch.Routes
import Mathlib.Order.Bounds.Basic

/-!
# The answer of a path search

A search that ends before the limit on labels stops it has an exact answer, whenever live labels can
stand in for all paths without costing more: it says that there is nothing to offer exactly if there
is no route, and otherwise offers the pattern of a cheapest route, at the cost of a pattern and of
its arcs.
-/

namespace PatternCovering

namespace PathSearch

variable {search : PathSearch Int Rat} {duals : List Rat}

section Column

/-- The costs along a path are added up. -/
theorem foldlM_add?_rat (amounts : List Rat) (first : Rat) :
    amounts.foldlM Quantity.add? first = (.ok (first + amounts.sum) : Except Fault Rat) := by
  induction amounts generalizing first with
  | nil => simp [pure, Except.pure]
  | cons amount rest ih =>
    rw [List.foldlM_cons]
    change List.foldlM _ (first + amount) rest = _
    rw [ih, List.sum_cons, add_assoc]

/-- The dual of the item that an arc covers is the weight of that item. -/
theorem itemWeight_eq_dualOf (weights : List Rat) (arc : Arc Int Rat) :
    itemWeight weights arc = arc.dualOf weights := by
  rw [itemWeight, Arc.dualOf]
  cases arc.item <;> rfl

/-- The column that a label is read off as: it costs as much as a pattern and the arcs of the path,
and weighs as much as the items that they cover. -/
theorem WellFormed.columnOf_rat (hwell : search.WellFormed) {costs : Array Rat}
    {pool : LabelPool Int Rat} {last : Nat} {path : List (Arc Int Rat)} {label : Label Int Rat}
    (hlabel : pool.arena[last]? = some label) (hpath : Spells search costs pool.history last path)
    (harcs : ∀ arc ∈ path, arc ∈ search.network.arcs) :
    ∃ column, search.columnOf pool label = .ok column ∧
      column.cost = search.settings.unitCost + (path.map (·.cost)).sum ∧
      column.counts.length = search.numItems.toNat ∧
      ∀ weights, weigh weights column.counts = (path.map (Arc.dualOf weights)).sum := by
  rw [hwell.columnOf_eq hlabel hpath harcs, Quantity.zero_rat, foldlM_add?_rat]
  refine ⟨_, rfl, by simp, length_itemCounts, fun weights => ?_⟩
  rw [weigh_itemCounts weights (hwell.itemsBelow harcs)]
  exact congrArg List.sum (List.map_congr_left fun arc _ => itemWeight_eq_dualOf weights arc)

end Column

/-- The best of some labels is no more expensive than any of them. -/
theorem cost_le_of_best? {labels : List (Nat × Label Int Rat)} {label : Label Int Rat}
    (h : best? labels = some label) : ∀ entry ∈ labels, label.cost ≤ entry.2.cost := by
  have hordered : ∀ entry ∈ labels, Numeric.IsOrdered entry.2.cost :=
    fun _ _ => ⟨trivial, by simp⟩
  exact fun entry hentry => by simpa using le_of_best? hordered h entry hentry

/-- Without a limit on labels there is always room for another one. -/
theorem full_of_nonpos (hlimit : search.settings.maxLabels ≤ 0) (pool : LabelPool Int Rat) :
    search.full pool = .ok false := by
  simp [full, not_lt.mpr hlimit, bind, Except.bind, pure, Except.pure]

/-- What it means to offer the pattern of a walk. -/
structure Offers (search : PathSearch Int Rat) (duals : List Rat) (walk : List (Arc Int Rat))
    (offer : Offer Rat) : Prop where
  route : search.network.IsRoute walk
  status_eq : offer.status = .optimal
  reducedCost_eq : offer.reducedCost = search.settings.unitCost + Network.adjustedCost duals walk
  cost_eq : offer.column.cost = search.settings.unitCost + (walk.map (·.cost)).sum
  length_counts : offer.column.counts.length = search.numItems.toNat
  weigh_counts : ∀ weights, weigh weights offer.column.counts =
    (walk.map (Arc.dualOf weights)).sum

/-- What it means to offer nothing. -/
structure OffersNothing (search : PathSearch Int Rat) (offer : Offer Rat) : Prop where
  status_eq : offer.status = .infeasible
  counts_eq : offer.column.counts = List.replicate search.numItems.toNat 0
  reducedCost_eq : offer.reducedCost = search.settings.unitCost

/-- The routes of the network are the paths that arrive at the sink. -/
theorem WellFormed.isRoute_iff (hwell : search.WellFormed) {walk : List (Arc Int Rat)} :
    search.network.IsRoute walk ↔
      search.network.IsWalk search.source walk search.sink ∧ search.network.StaysWithin walk := by
  simp only [Network.IsRoute, hwell.source_eq, hwell.sink_eq, Option.mem_def, Option.some.injEq]
  constructor
  · rintro ⟨source, rfl, sink, rfl, h⟩
    exact h
  · intro h
    exact ⟨_, rfl, _, rfl, h⟩

/-- A search that was not stopped offers the pattern of a route, that of the cheapest live label at the
sink, or nothing if there is no such label. -/
theorem Reached.offerAt_cases (hwell : search.WellFormed)
    (hlength : (duals.length : Int) = search.numItems) {state : State Int Rat}
    (h : Reached search (search.network.arcs.map (Arc.adjustedCost duals)) ⟨.idle, state⟩)
    (hstop : state.stop = none) :
    ∃ found, search.offerAt duals state = .ok found ∧
      ((OffersNothing search found ∧ ∀ id, id ∉ state.pool.liveAt search.sink) ∨
        ∃ walk, Offers search duals walk found ∧ ∀ id ∈ state.pool.liveAt search.sink,
          ∀ label, state.pool.history[id]? = some label →
            Network.adjustedCost duals walk ≤ label.cost) := by
  have hbooks := h.books hwell
  have hlimit : state.hitLimit = false := by simp [State.hitLimit, hstop]
  have hentry : ∀ id ∈ state.pool.liveAt search.sink, ∀ label,
      state.pool.history[id]? = some label → ∃ known, known.unflagged = label ∧
        (id, known) ∈ (state.pool.liveAt search.sink).toList.filterMap
          (fun id => state.pool.arena[id]?.map (id, ·)) := by
    intro id hid label hlabel
    rw [LabelPool.getElem?_history] at hlabel
    obtain ⟨known, hknown, hsame⟩ := Option.map_eq_some_iff.mp hlabel
    exact ⟨known, hsame, mem_liveLabels.mpr ⟨hid, hknown⟩⟩
  rcases hbest : search.bestAtSink? state.pool with - | label
  · refine ⟨Offer.nothing search.numItems.toNat search.settings.unitCost .infeasible, ?_,
      Or.inl ⟨⟨rfl, rfl, rfl⟩, fun id hid => ?_⟩⟩
    · simp [offerAt, hbest, hlimit, noCounts, Position.toInt, bind, Except.bind, pure, Except.pure]
    · obtain ⟨label, hlabel, -⟩ := hbooks.standsAt hid
      obtain ⟨known, -, hmem⟩ := hentry id hid label hlabel
      rw [bestAtSink?] at hbest
      cases hlabels : (state.pool.liveAt search.sink).toList.filterMap
        (fun id => state.pool.arena[id]?.map (id, ·)) with
      | nil => simp [hlabels] at hmem
      | cons first rest => simp [hlabels, best?] at hbest
  · have hleast := cost_le_of_best? hbest
    obtain ⟨last, hid, hlabel⟩ := of_bestAtSink? hbest
    have hhistory : state.pool.history[last]? = some label.unflagged := by
      rw [LabelPool.getElem?_history, hlabel]
      rfl
    obtain ⟨known, hknown, hat⟩ := hbooks.standsAt hid
    change state.pool.history[last]? = some known at hknown
    rw [hhistory, Option.some.injEq] at hknown
    subst hknown
    obtain ⟨walk, hwalk⟩ := h.spells hwell hhistory
    obtain ⟨hiswalk, hstays, -, htotal⟩ := hwell.arrives_iff.mp (hwalk.arrives hhistory hat)
    change label.cost = Network.adjustedCost duals walk at htotal
    obtain ⟨column, hcolumn, hprice, hsize, hweights⟩ := hwell.columnOf_rat hlabel hwalk
      fun arc harc => hiswalk.mem_arcs harc
    have hmatch : duals.length = column.counts.length := by omega
    have hreduced := Column.reducedCostUnder_rat hmatch
    refine ⟨Offer.ofColumn column (column.cost - weigh duals column.counts) .optimal, ?_,
      Or.inr ⟨walk, ⟨hwell.isRoute_iff.mpr ⟨hiswalk, hstays⟩, rfl, ?_, hprice, hsize, hweights⟩,
        fun id hid other hother => ?_⟩⟩
    · simp [offerAt, hbest, hlimit, hcolumn, hreduced, bind, Except.bind, pure, Except.pure]
    · change column.cost - weigh duals column.counts = _
      rw [hprice, hweights, Network.adjustedCost_eq_sub]
      ring
    · obtain ⟨known, rfl, hmem⟩ := hentry id hid other hother
      rw [← htotal]
      exact hleast _ hmem

/-- A price that is returned comes from a search that has ended. -/
theorem of_price {fuel : Nat} {offer : Offer Rat}
    (h : (search.price fuel duals).2 = .ok offer) :
    (duals.length : Int) = search.numItems ∧ ∃ final found, search.explore fuel duals = .ok final ∧
      search.offerAt duals final = .ok found ∧ offer = { found with
        numCreated := final.pool.numCreated
        numDominated := final.pool.numDominated
        numVisits := final.visits } := by
  obtain ⟨⟨answer, pool⟩, hanswer, rfl⟩ := map_eq_ok.mp h
  rcases hread : readDuals search.numItems duals with fault | read
  · simp [hread] at hanswer
  · obtain ⟨hlength, rfl⟩ := readDuals_rat hread
    obtain ⟨final, found, hexplore, hfound, -, hoffer⟩ := of_priceWithLabels hread hanswer
    exact ⟨hlength, final, found, hexplore, hfound, hoffer⟩

/-- Without a limit on labels no offer comes from a search that was stopped. -/
theorem status_ne_of_price (hlimit : search.settings.maxLabels ≤ 0) {fuel : Nat}
    {offer : Offer Rat} (h : (search.price fuel duals).2 = .ok offer) :
    offer.status ≠ .iterationLimit := by
  obtain ⟨-, final, found, hexplore, hfound, rfl⟩ := of_price h
  obtain ⟨costs, -, hreached, -⟩ := reached_of_explore hexplore
  have hstop : final.stop = none := hreached.stop_eq_none (full_of_nonpos hlimit)
  intro hstatus
  simpa [State.hitLimit, hstop] using (status_of_offerAt hfound).mp hstatus

/-- A price that is returned by a search that was not stopped comes from one that has ended with an
empty queue, and offers the pattern of a route or nothing. -/
theorem ended_cases (hwell : search.WellFormed) {fuel : Nat} {offer : Offer Rat}
    (h : (search.price fuel duals).2 = .ok offer) (hstatus : offer.status ≠ .iterationLimit) :
    ∃ state, Reached search (search.network.arcs.map (Arc.adjustedCost duals)) ⟨.idle, state⟩ ∧
      state.stop = none ∧ state.queue = [] ∧
      ((OffersNothing search offer ∧ ∀ id, id ∉ state.pool.liveAt search.sink) ∨
        ∃ walk, Offers search duals walk offer ∧ ∀ id ∈ state.pool.liveAt search.sink,
          ∀ label, state.pool.history[id]? = some label →
            Network.adjustedCost duals walk ≤ label.cost) := by
  obtain ⟨hlength, final, found, hexplore, hfound, rfl⟩ := of_price h
  obtain ⟨costs, hcosts, hreached, hfinished⟩ := reached_of_explore hexplore
  rw [hwell.arcCosts_eq hlength, Except.ok.injEq] at hcosts
  subst hcosts
  have hstop := stop_of_explore hexplore
    (Bool.eq_false_iff.mpr fun hhit => hstatus ((status_of_offerAt hfound).mpr hhit))
  have hqueue : final.queue = [] := by
    simpa [State.isFinished, hstop] using hfinished
  refine ⟨final, hreached, hstop, hqueue, ?_⟩
  obtain ⟨answer, hanswer, hcases⟩ := hreached.offerAt_cases hwell hlength hstop
  rw [hfound, Except.ok.injEq] at hanswer
  subst hanswer
  rcases hcases with ⟨hnothing, hempty⟩ | ⟨walk, hwalk, hleast⟩
  · exact Or.inl ⟨⟨hnothing.status_eq, hnothing.counts_eq, hnothing.reducedCost_eq⟩, hempty⟩
  · exact Or.inr ⟨walk, ⟨hwalk.route, hwalk.status_eq, hwalk.reducedCost_eq, hwalk.cost_eq,
      hwalk.length_counts, hwalk.weigh_counts⟩, hleast⟩

/-- When a search is finished and was not stopped, a live label at the sink costs no more than a
route, if live labels can stand in for all paths without costing more. -/
theorem Reached.exists_cheaper {R : List Rat × Rat → List Rat × Rat → Prop}
    (hwell : search.WellFormed)
    (hR : StandsIn search (search.network.arcs.map (Arc.adjustedCost duals)) R)
    (hcost : ∀ totals others, R totals others → totals.2 ≤ others.2) {state : State Int Rat}
    (h : Reached search (search.network.arcs.map (Arc.adjustedCost duals)) ⟨.idle, state⟩)
    (hstop : state.stop = none) (hqueue : state.queue = []) {walk : List (Arc Int Rat)}
    (hroute : search.network.IsRoute walk) :
    ∃ id ∈ state.pool.liveAt search.sink, ∃ label, state.pool.history[id]? = some label ∧
      label.cost ≤ Network.adjustedCost duals walk := by
  obtain ⟨hwalk, hstays⟩ := hwell.isRoute_iff.mp hroute
  obtain ⟨id, hid, label, hlabel, hstands⟩ := h.met_of_arrives hwell hR hstop hqueue
    (hwell.arrives_iff.mpr ⟨hwalk, hstays, rfl, rfl⟩)
  exact ⟨id, hid, label, hlabel, hcost _ _ hstands⟩

/-- A price that is returned by a search that was not stopped is that of a cheapest route, or nothing
is offered because there is no route, if live labels can stand in for all paths without costing
more. -/
theorem ended_exact {R : List Rat × Rat → List Rat × Rat → Prop} (hwell : search.WellFormed)
    (hR : StandsIn search (search.network.arcs.map (Arc.adjustedCost duals)) R)
    (hcost : ∀ totals others, R totals others → totals.2 ≤ others.2) {fuel : Nat}
    {offer : Offer Rat} (h : (search.price fuel duals).2 = .ok offer)
    (hstatus : offer.status ≠ .iterationLimit) :
    (OffersNothing search offer ∧ ∀ walk, ¬ search.network.IsRoute walk) ∨
      ∃ walk, Offers search duals walk offer ∧ ∀ other, search.network.IsRoute other →
        Network.adjustedCost duals walk ≤ Network.adjustedCost duals other := by
  obtain ⟨state, hreached, hstop, hqueue, hcases⟩ := ended_cases hwell h hstatus
  rcases hcases with ⟨hnothing, hempty⟩ | ⟨walk, hwalk, hleast⟩
  · refine Or.inl ⟨hnothing, fun walk hroute => ?_⟩
    obtain ⟨id, hid, -⟩ := hreached.exists_cheaper hwell hR hcost hstop hqueue hroute
    exact hempty id hid
  · refine Or.inr ⟨walk, hwalk, fun other hother => ?_⟩
    obtain ⟨id, hid, label, hlabel, hle⟩ :=
      hreached.exists_cheaper hwell hR hcost hstop hqueue hother
    exact (hleast id hid label hlabel).trans hle

end PathSearch

end PatternCovering
