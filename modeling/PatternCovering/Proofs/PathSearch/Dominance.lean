import PatternCovering.Proofs.PathSearch.Answer

/-!
# What dominance may drop

A label that is dominated is dropped because the other one costs no more and uses no more of any
resource. Whatever the dropped label could still do, the other one can do as well, as far as upper
bounds go. A lower bound is another matter: using less of a resource may be the worse position. Under
a condition on the network that keeps lower bounds out of play, dropping is safe and a search offers
a cheapest route; without it a search may miss routes, and then it offers too little or nothing.
-/

namespace PatternCovering

namespace Network

/-- Whether dropping dominated labels is safe on a network: every resource with a lower bound is only
ever consumed, and its bound is at most zero unless no arc leads back to the source. -/
def DominanceSafe (network : Network Int Rat) : Prop :=
  ∀ (resource : Nat) (window : Window Rat), network.windows[resource]? = some window →
    ∀ low ∈ window.lower, (∀ arc ∈ network.arcs, 0 ≤ arc.consumption.getD resource 0) ∧
      (low ≤ 0 ∨ ∀ arc ∈ network.arcs, arc.target ∉ network.source)

/-- Whether dropping is safe can be computed. -/
instance (network : Network Int Rat) : Decidable network.DominanceSafe :=
  decidable_of_iff (∀ resource ∈ List.range network.windows.length,
    ∀ window ∈ network.windows[resource]?, ∀ low ∈ window.lower,
      (∀ arc ∈ network.arcs, 0 ≤ arc.consumption.getD resource 0) ∧
        (low ≤ 0 ∨ ∀ arc ∈ network.arcs, arc.target ∉ network.source)) <| by
    refine ⟨fun h resource window hwindow => ?_, fun h resource _ window => h resource window⟩
    have hlt := (List.getElem?_eq_some_iff.mp hwindow).1
    exact h resource (List.mem_range.mpr hlt) window hwindow

/-- A network without negative consumption whose lower bounds are at most zero is safe. -/
theorem dominanceSafe_of_nonneg {network : Network Int Rat}
    (hconsumption : ∀ arc ∈ network.arcs, ∀ amount ∈ arc.consumption, 0 ≤ amount)
    (hlower : ∀ window ∈ network.windows, ∀ low ∈ window.lower, low ≤ 0) :
    network.DominanceSafe := by
  intro resource window hwindow low hlow
  exact ⟨fun arc harc => consumption_nonneg hconsumption harc resource,
    Or.inl (hlower window (List.mem_of_getElem? hwindow) low hlow)⟩

/-- A network of numbered nodes with its two ends and its arcs, each given by its ends, its cost, its
consumption and the item that it covers. -/
def assemble (windows : List (Window Rat)) (numNodes : Nat) (source sink : Int)
    (arcs : List (Int × Int × Rat × List Rat × Option Int)) : Except Fault (Network Int Rat) := do
  let bare ← (List.range numNodes).foldlM
    (fun network index => do return (← network.addNode (.int index)).1)
    ({ windows } : Network Int Rat)
  let started ← bare.setSource source
  let ended ← started.setSink sink
  return arcs.foldl (fun network (source, target, cost, consumption, item) =>
    (network.addArc source target cost (some consumption) item []).1) ended

/-- A network that is put together so is built by the operations. -/
theorem built_of_assemble {windows : List (Window Rat)} {numNodes : Nat} {source sink : Int}
    {arcs : List (Int × Int × Rat × List Rat × Option Int)} {network : Network Int Rat}
    (h : assemble windows numNodes source sink arcs = .ok network) : network.Built := by
  have hnodes : ∀ (names : List Nat) (first last : Network Int Rat), first.Built →
      names.foldlM (fun network index => do return (← network.addNode (.int index)).1) first =
        .ok last → last.Built := by
    intro names
    induction names with
    | nil =>
      intro first last hfirst hlast
      exact Except.ok.inj hlast ▸ hfirst
    | cons index names ih =>
      intro first last hfirst hlast
      rw [List.foldlM_cons] at hlast
      obtain ⟨next, hnext, hlast⟩ := bind_eq_ok.mp hlast
      obtain ⟨⟨extended, place⟩, hadded, hsame⟩ := bind_eq_ok.mp hnext
      refine ih next last ?_ hlast
      rw [← Except.ok.inj hsame]
      exact hfirst.addNode hadded
  have harcs : ∀ (arcs : List (Int × Int × Rat × List Rat × Option Int)) (first : Network Int Rat),
      first.Built → (arcs.foldl (fun network (source, target, cost, consumption, item) =>
        (network.addArc source target cost (some consumption) item []).1) first).Built := by
    intro arcs
    induction arcs with
    | nil => exact fun first hfirst => hfirst
    | cons arc arcs ih =>
      intro first hfirst
      exact ih _ (hfirst.addArc rfl)
  obtain ⟨bare, hbare, h⟩ := bind_eq_ok.mp h
  obtain ⟨started, hstarted, h⟩ := bind_eq_ok.mp h
  obtain ⟨ended, hended, h⟩ := bind_eq_ok.mp h
  rw [← Except.ok.inj h]
  exact harcs arcs ended (((hnodes _ _ _ (.empty windows) hbare).setSource hstarted).setSink hended)

end Network

namespace PathSearch

variable {search : PathSearch Int Rat} {duals : List Rat}

/-- Whether totals are no worse than others in the cost and in every resource. -/
def NoWorse (totals others : List Rat × Rat) : Prop :=
  totals.2 ≤ others.2 ∧ List.Forall₂ (· ≤ ·) totals.1 others.1

/-- To be no worse is transitive. -/
theorem NoWorse.trans {first second third : List Rat × Rat} (h : NoWorse first second)
    (hsecond : NoWorse second third) : NoWorse first third :=
  ⟨h.1.trans hsecond.1, forall₂_le_trans h.2 hsecond.2⟩

/-- Listed amounts compare entry by entry. -/
theorem forall₂_le_range {numResources : Nat} {amount other : Nat → Rat} :
    List.Forall₂ (· ≤ ·) ((List.range numResources).map amount)
        ((List.range numResources).map other) ↔
      ∀ resource, resource < numResources → amount resource ≤ other resource := by
  rw [List.forall₂_map_left_iff, List.forall₂_map_right_iff, List.forall₂_same]
  simp

/-- On a safe network, a walk that uses no more than another one at its node stays inside the windows
along every arc along which the other one does. -/
theorem WellFormed.admits_of_le (hwell : search.WellFormed) (hsafe : search.network.DominanceSafe)
    {node : Nat} {walk detour : List (Arc Int Rat)} {arc : Arc Int Rat}
    (hwalk : search.network.IsWalk search.source walk node)
    (hstays : search.network.StaysWithin walk)
    (hdetour : search.network.IsWalk search.source detour node)
    (harc : arc ∈ search.network.arcs)
    {resource : Nat} {window : Window Rat} (hwindow : search.network.windows[resource]? = some window)
    (hle : Network.used walk resource ≤ Network.used detour resource)
    (hadmits : window.Admits (Network.used (detour ++ [arc]) resource)) :
    window.Admits (Network.used (walk ++ [arc]) resource) := by
  rw [Network.used_concat] at hadmits ⊢
  refine ⟨fun low hlow => ?_, fun high hhigh => ?_⟩
  · obtain ⟨hconsumes, hbound⟩ := hsafe resource window hwindow low hlow
    have hamount := hconsumes arc harc
    rcases hbound with hbound | hbound
    · have hused : 0 ≤ Network.used walk resource := Network.used_nonneg fun other hother =>
        hconsumes other (hwalk.mem_arcs hother)
      linarith
    · -- away from the source the bound is met already; at the source both walks are empty
      by_cases hnil : walk = []
      · subst hnil
        rcases List.eq_nil_or_concat' detour with rfl | ⟨rest, last, rfl⟩
        · exact hadmits.1 low hlow
        · obtain ⟨-, hlast, htarget⟩ := Network.isWalk_concat.mp hdetour
          have hback : last.target ∈ search.network.source := by
            rw [hwell.source_eq, htarget]
            exact congrArg some hwalk
          exact absurd hback (hbound last hlast)
      · have hmet := (hstays walk (List.prefix_refl _) hnil resource window hwindow).1 low hlow
        linarith
  · have hmax := hadmits.2 high hhigh
    linarith

/-- A label takes the place of one that it dominates by being no worse. -/
theorem WellFormed.takesPlace_noWorse (hwell : search.WellFormed) (duals : List Rat) :
    TakesPlace search (search.network.arcs.map (Arc.adjustedCost duals)) NoWorse where
  refl totals := ⟨le_refl _, List.forall₂_same.mpr fun amount _ => le_refl amount⟩
  trans _ _ _ := NoWorse.trans
  dominates := by
    intro _ label other node path detour hpath hdetour hdom
    obtain ⟨-, -, hused, -⟩ := hwell.arrives_iff.mp hpath
    obtain ⟨-, -, hspent, -⟩ := hwell.arrives_iff.mp hdetour
    obtain ⟨answer, hanswer, hiff⟩ := Label.dominates_rat label other
    rw [hdom, Except.ok.injEq] at hanswer
    exact (hiff (by rw [hused, hspent, List.length_map, List.length_map])).mp hanswer.symm

/-- On a safe network a path that is no worse stands in for the other one. -/
theorem WellFormed.standsIn_noWorse (hwell : search.WellFormed)
    (hsafe : search.network.DominanceSafe) :
    StandsIn search (search.network.arcs.map (Arc.adjustedCost duals)) NoWorse where
  refl := (hwell.takesPlace_noWorse duals).refl
  trans := (hwell.takesPlace_noWorse duals).trans
  dominates := (hwell.takesPlace_noWorse duals).dominates
  step := by
    intro path detour node used spent more cost bill price total arc hpath hdetour hle harc hmore
      hwithin htotal
    obtain ⟨hwalk, hstays, rfl, rfl⟩ := hwell.arrives_iff.mp hpath
    obtain ⟨hdetourWalk, -, rfl, rfl⟩ := hwell.arrives_iff.mp hdetour
    obtain ⟨hmem, -, rfl⟩ := hwell.mem_arcsFrom_iff.mp harc
    have hused := forall₂_le_range.mp hle.2
    rw [extendResources_rat, hwell.zipWith_used hmem, Except.ok.injEq] at hmore
    subst hmore
    rw [Quantity.add?_rat, Except.ok.injEq] at htotal
    subst htotal
    rw [Window.containsAll_iff (by simp [Network.numResources]), Network.numResources,
      Network.forall₂_admits_iff] at hwithin
    refine ⟨(List.range search.network.numResources).map (Network.used (path ++ [arc])), _, ?_, ?_,
      rfl, ?_, ?_⟩
    · rw [extendResources_rat, hwell.zipWith_used hmem]
    · rw [Window.containsAll_iff (by simp [Network.numResources]), Network.numResources,
        Network.forall₂_admits_iff]
      intro resource window hwindow
      exact hwell.admits_of_le hsafe hwalk hstays hdetourWalk hmem hwindow
        (hused resource (List.getElem?_eq_some_iff.mp hwindow).1) (hwithin resource window hwindow)
    · have hcost : Network.adjustedCost duals path ≤ Network.adjustedCost duals detour := hle.1
      change Network.adjustedCost duals path + arc.adjustedCost duals ≤
        Network.adjustedCost duals detour + arc.adjustedCost duals
      linarith
    · refine forall₂_le_range.mpr fun resource hresource => ?_
      rw [Network.used_concat, Network.used_concat]
      have hresourceLe := hused resource hresource
      linarith

/-- What an exact answer to duals is: nothing is offered exactly if there is no route, and then the
empty pattern at the cost of a pattern; otherwise the offer is at the least cost of a route. -/
structure IsExactAnswer (network : Network Int Rat) (unitCost : Rat) (duals : List Rat)
    (offer : Offer Rat) : Prop where
  infeasible_iff : offer.status = .infeasible ↔ ¬ ∃ walk, network.IsRoute walk
  nothing : offer.status = .infeasible →
    offer.column.isEmpty = true ∧ offer.reducedCost = unitCost
  optimal : (∃ walk, network.IsRoute walk) → offer.status = .optimal ∧
    IsLeast {cost | ∃ walk, network.IsRoute walk ∧
      cost = unitCost + Network.adjustedCost duals walk} offer.reducedCost

/-- A price that is returned by a search that was not stopped is exact, if live labels can stand in
for all paths without costing more. -/
theorem ended_isExact {R : List Rat × Rat → List Rat × Rat → Prop} (hwell : search.WellFormed)
    (hR : StandsIn search (search.network.arcs.map (Arc.adjustedCost duals)) R)
    (hcost : ∀ totals others, R totals others → totals.2 ≤ others.2) {fuel : Nat}
    {offer : Offer Rat} (h : (search.price fuel duals).2 = .ok offer)
    (hended : offer.status ≠ .iterationLimit) :
    IsExactAnswer search.network search.settings.unitCost duals offer := by
  rcases ended_exact hwell hR hcost h hended with ⟨hnothing, hnone⟩ | ⟨walk, hwalk, hleast⟩
  · refine ⟨iff_of_true hnothing.status_eq (not_exists.mpr hnone),
      fun _ => ⟨?_, hnothing.reducedCost_eq⟩, fun hroute => absurd hroute (not_exists.mpr hnone)⟩
    simp [Column.isEmpty, hnothing.counts_eq]
  · have hstatus : offer.status ≠ .infeasible := by
      rw [hwalk.status_eq]
      decide
    refine ⟨iff_of_false hstatus (not_not.mpr ⟨walk, hwalk.route⟩), fun h => absurd h hstatus,
      fun _ => ⟨hwalk.status_eq, ⟨walk, hwalk.route, hwalk.reducedCost_eq⟩, ?_⟩⟩
    rintro cost ⟨other, hother, rfl⟩
    rw [hwalk.reducedCost_eq]
    exact add_le_add_right (hleast other hother) _

/-- A price that is returned without a limit on labels is exact, if live labels can stand in for all
paths without costing more. -/
theorem price_isExact {R : List Rat × Rat → List Rat × Rat → Prop} (hwell : search.WellFormed)
    (hlimit : search.settings.maxLabels ≤ 0)
    (hR : StandsIn search (search.network.arcs.map (Arc.adjustedCost duals)) R)
    (hcost : ∀ totals others, R totals others → totals.2 ≤ others.2) {fuel : Nat}
    {offer : Offer Rat} (h : (search.price fuel duals).2 = .ok offer) :
    IsExactAnswer search.network search.settings.unitCost duals offer :=
  ended_isExact hwell hR hcost h (status_ne_of_price hlimit h)

/-- Exact answers to the same duals agree. -/
theorem IsExactAnswer.unique {network : Network Int Rat} {unitCost : Rat} {offer other : Offer Rat}
    (h : IsExactAnswer network unitCost duals offer)
    (hother : IsExactAnswer network unitCost duals other) :
    offer.status = other.status ∧ offer.reducedCost = other.reducedCost := by
  by_cases hroute : ∃ walk, network.IsRoute walk
  · obtain ⟨hstatus, hleast⟩ := h.optimal hroute
    obtain ⟨hstatus', hleast'⟩ := hother.optimal hroute
    exact ⟨hstatus.trans hstatus'.symm, hleast.unique hleast'⟩
  · have hstatus := h.infeasible_iff.mpr hroute
    have hstatus' := hother.infeasible_iff.mpr hroute
    exact ⟨hstatus.trans hstatus'.symm, (h.nothing hstatus).2.trans (hother.nothing hstatus').2.symm⟩

/-- What every answer to duals without a limit on labels is, exact or not: that of some route, or
nothing. -/
def IsAnswer (network : Network Int Rat) (unitCost : Rat) (duals : List Rat) (offer : Offer Rat) :
    Prop :=
  (offer.status = .infeasible ∧ offer.reducedCost = unitCost) ∨
    (offer.status = .optimal ∧ ∃ walk, network.IsRoute walk ∧
      offer.reducedCost = unitCost + Network.adjustedCost duals walk)

/-- A price that is returned without a limit on labels is an answer. -/
theorem price_isAnswer (hwell : search.WellFormed) (hlimit : search.settings.maxLabels ≤ 0)
    {fuel : Nat} {offer : Offer Rat} (h : (search.price fuel duals).2 = .ok offer) :
    IsAnswer search.network search.settings.unitCost duals offer := by
  obtain ⟨_, -, -, -, hcases⟩ := ended_cases hwell h (status_ne_of_price hlimit h)
  rcases hcases with ⟨hnothing, -⟩ | ⟨walk, hwalk, -⟩
  · exact Or.inl ⟨hnothing.status_eq, hnothing.reducedCost_eq⟩
  · exact Or.inr ⟨hwalk.status_eq, walk, hwalk.route, hwalk.reducedCost_eq⟩

/-- No answer is better than an exact one. -/
theorem IsExactAnswer.le {network : Network Int Rat} {unitCost : Rat} {offer other : Offer Rat}
    (h : IsExactAnswer network unitCost duals other)
    (hoffer : IsAnswer network unitCost duals offer) (hstatus : offer.status = .optimal) :
    other.status = .optimal ∧ other.reducedCost ≤ offer.reducedCost := by
  rcases hoffer with ⟨hnothing, -⟩ | ⟨-, walk, hwalk, hcost⟩
  · rw [hnothing] at hstatus
    cases hstatus
  · obtain ⟨hoptimal, hleast⟩ := h.optimal ⟨walk, hwalk⟩
    exact ⟨hoptimal, hleast.2 ⟨walk, hwalk, hcost⟩⟩

/-- An answer agrees with an exact one exactly if it offers something whenever there is a route, and
no route is cheaper than its offer. -/
theorem IsExactAnswer.agrees_iff {network : Network Int Rat} {unitCost : Rat}
    {offer other : Offer Rat} (h : IsExactAnswer network unitCost duals other)
    (hoffer : IsAnswer network unitCost duals offer) :
    (offer.status = other.status ∧ offer.reducedCost = other.reducedCost) ↔
      ∀ walk, network.IsRoute walk → offer.status = .optimal ∧
        offer.reducedCost ≤ unitCost + Network.adjustedCost duals walk := by
  constructor
  · rintro ⟨hstatus, hcost⟩ walk hwalk
    obtain ⟨hoptimal, hleast⟩ := h.optimal ⟨walk, hwalk⟩
    exact ⟨hstatus.trans hoptimal, hcost ▸ hleast.2 ⟨walk, hwalk, rfl⟩⟩
  · intro hroutes
    by_cases hroute : ∃ walk, network.IsRoute walk
    · obtain ⟨hoptimal, ⟨best, hbest, hleast⟩, -⟩ := h.optimal hroute
      obtain ⟨hstatus, hle⟩ := hroutes best hbest
      refine ⟨hstatus.trans hoptimal.symm, le_antisymm ?_ (h.le hoffer hstatus).2⟩
      exact hle.trans (le_of_eq hleast.symm)
    · have hnone := h.infeasible_iff.mpr hroute
      rcases hoffer with ⟨hstatus, hcost⟩ | ⟨-, walk, hwalk, -⟩
      · exact ⟨hstatus.trans hnone.symm, hcost.trans (h.nothing hnone).2.symm⟩
      · exact absurd ⟨walk, hwalk⟩ hroute

/-- The status and the reduced cost of the answer on a network, nothing if there is no answer. -/
def answer? (network : Except Fault (Network Int Rat)) (settings : PricingSettings Rat) (fuel : Nat)
    (duals : List Rat) : Option (OfferStatus × Rat) :=
  match network >>= fun network => make network none settings >>= fun search =>
    (search.price fuel duals).2 with
  | .ok offer => some (offer.status, offer.reducedCost)
  | .error _ => none

/-- Behind an answer stand a network, a search on it and the offer of the search. -/
theorem of_answer? {network : Except Fault (Network Int Rat)} {settings : PricingSettings Rat}
    {fuel : Nat} {duals : List Rat} {status : OfferStatus} {cost : Rat}
    (h : answer? network settings fuel duals = some (status, cost)) :
    ∃ built search offer, network = .ok built ∧ make built none settings = .ok search ∧
      (search.price fuel duals).2 = .ok offer ∧ offer.status = status ∧
      offer.reducedCost = cost := by
  simp only [answer?] at h
  split at h
  · next offer hoffer =>
    obtain ⟨built, hbuilt, hoffer⟩ := bind_eq_ok.mp hoffer
    obtain ⟨search, hsearch, hoffer⟩ := bind_eq_ok.mp hoffer
    simp only [Option.some.injEq, Prod.mk.injEq] at h
    exact ⟨built, search, offer, hbuilt, hsearch, hoffer, h⟩
  · cases h

/-- On a network without negative consumption whose lower bounds are at most zero, a price that is
returned without a limit on labels is that of a cheapest route, and nothing is offered exactly if
there is no route. -/
theorem cheapest_route_of_price {network : Network Int Rat} (hbuilt : network.Built)
    (hconsumption : ∀ arc ∈ network.arcs, ∀ amount ∈ arc.consumption, 0 ≤ amount)
    (hlower : ∀ window ∈ network.windows, ∀ low ∈ window.lower, low ≤ 0)
    {numItems : Option Int} {settings : PricingSettings Rat} (hlimit : settings.maxLabels ≤ 0)
    {search : PathSearch Int Rat} (hmake : make network numItems settings = .ok search)
    {fuel : Nat} {duals : List Rat} {offer : Offer Rat}
    (hprice : (search.price fuel duals).2 = .ok offer) :
    IsExactAnswer network settings.unitCost duals offer := by
  obtain ⟨hwell, rfl, rfl⟩ := wellFormed_of_make hbuilt.wellFormed hmake
  exact price_isExact hwell hlimit
    (hwell.standsIn_noWorse (Network.dominanceSafe_of_nonneg hconsumption hlower))
    (fun _ _ h => h.1) hprice

/-- A loop that covers an item is gone through as often as its window admits: twice here. -/
theorem cheapest_route_of_loop : ∃ network : Network Int Rat, network.Built ∧
    (∀ arc ∈ network.arcs, ∀ amount ∈ arc.consumption, 0 ≤ amount) ∧
    (∀ window ∈ network.windows, ∀ low ∈ window.lower, low ≤ 0) ∧ ∃ search offer,
      make network none ⟨1, 0, true⟩ = .ok search ∧ (search.price 9 [3]).2 = .ok offer ∧
      IsExactAnswer network 1 [3] offer ∧ offer.reducedCost = -4 := by
  generalize hassembled : Network.assemble [⟨some 0, some 5, .null⟩] 2 0 1
    [(0, 0, 0, [2], some 0), (0, 1, 1, [1], none)] = assembled
  have hanswer : answer? assembled ⟨1, 0, true⟩ 9 [3] = some (.optimal, -4) := by
    rw [← hassembled]
    decide +kernel
  have hnonneg : (assembled.toOption.all fun network =>
      network.arcs.all (·.consumption.all (0 ≤ ·)) &&
        network.windows.all (·.lower.all (· ≤ 0))) = true := by
    rw [← hassembled]
    decide +kernel
  obtain ⟨network, search, offer, rfl, hmake, hprice, -, hcost⟩ := of_answer? hanswer
  simp only [Except.toOption, Option.all_some, Bool.and_eq_true, Array.all_eq_true_iff_forall_mem,
    List.all_eq_true, Option.all_eq_true, decide_eq_true_eq] at hnonneg
  have hbuilt := Network.built_of_assemble hassembled
  exact ⟨network, hbuilt, hnonneg.1, hnonneg.2, search, offer, hmake, hprice,
    cheapest_route_of_price hbuilt hnonneg.1 hnonneg.2 (le_refl 0) hmake hprice, hcost⟩

/-- Dominance never makes a price better. It leaves the status and the reduced cost unchanged exactly
if it misses no route, neither the only one nor a cheaper one, and on a safe network it misses
none. -/
theorem price_unchanged_by_dominance {network : Network Int Rat} (hbuilt : network.Built)
    {numItems : Option Int} (settings : PricingSettings Rat) (hlimit : settings.maxLabels ≤ 0)
    {pruned full : PathSearch Int Rat}
    (hpruned : make network numItems { settings with useDominance := true } = .ok pruned)
    (hfull : make network numItems { settings with useDominance := false } = .ok full)
    {fuel limit : Nat} {duals : List Rat} {offer other : Offer Rat}
    (hoffer : (pruned.price fuel duals).2 = .ok offer)
    (hother : (full.price limit duals).2 = .ok other) :
    (offer.status = .optimal →
      other.status = .optimal ∧ other.reducedCost ≤ offer.reducedCost) ∧
    ((offer.status = other.status ∧ offer.reducedCost = other.reducedCost) ↔
      ∀ walk, network.IsRoute walk → offer.status = .optimal ∧
        offer.reducedCost ≤ settings.unitCost + Network.adjustedCost duals walk) ∧
    (network.DominanceSafe →
      offer.status = other.status ∧ offer.reducedCost = other.reducedCost) := by
  obtain ⟨hwell, hnetwork, hsettings⟩ := wellFormed_of_make hbuilt.wellFormed hpruned
  obtain ⟨hwell', hnetwork', hsettings'⟩ := wellFormed_of_make hbuilt.wellFormed hfull
  have hnolimit : pruned.settings.maxLabels ≤ 0 := by
    rw [hsettings]
    exact hlimit
  have hexact : IsExactAnswer full.network full.settings.unitCost duals other :=
    price_isExact hwell' (by rw [hsettings']; exact hlimit)
      (standsIn_eq (by rw [hsettings'])) (fun _ _ h => le_of_eq (congrArg Prod.snd h)) hother
  have hanswer := price_isAnswer hwell hnolimit hoffer
  rw [hnetwork', hsettings'] at hexact
  rw [hnetwork, hsettings] at hanswer
  refine ⟨hexact.le hanswer, hexact.agrees_iff hanswer, fun hsafe => ?_⟩
  have hprunedExact := price_isExact hwell hnolimit
    (hwell.standsIn_noWorse (hnetwork.symm ▸ hsafe)) (fun _ _ h => h.1) hoffer
  rw [hnetwork, hsettings] at hprunedExact
  exact hprunedExact.unique hexact

/-- A network with a positive lower bound away from the source, and with a resource that is given
back, on which dominance changes nothing. -/
theorem price_unchanged_on_safe_loop : ∃ network : Network Int Rat, network.Built ∧
    network.DominanceSafe ∧ ∃ pruned full offer other,
      make network none ⟨1, 0, true⟩ = .ok pruned ∧ make network none ⟨1, 0, false⟩ = .ok full ∧
      (pruned.price 20 [1]).2 = .ok offer ∧ (full.price 20 [1]).2 = .ok other ∧
      offer.status = other.status ∧ offer.reducedCost = other.reducedCost := by
  generalize hassembled : Network.assemble [⟨some 2, some 5, .null⟩, ⟨none, some 3, .null⟩] 3 0 2
    [(0, 1, 0, [2, 1], none), (0, 1, 1, [3, -1], none), (1, 1, 0, [1, 1], some 0),
      (1, 2, 0, [0, -2], none)] = assembled
  have hpruned : answer? assembled ⟨1, 0, true⟩ 20 [1] = some (.optimal, -1) := by
    rw [← hassembled]
    decide +kernel
  have hfull : answer? assembled ⟨1, 0, false⟩ 20 [1] = some (.optimal, -1) := by
    rw [← hassembled]
    decide +kernel
  have hsafe : (assembled.toOption.all fun network => network.DominanceSafe) = true := by
    rw [← hassembled]
    decide +kernel
  obtain ⟨network, pruned, offer, rfl, hmake, hoffer, -, -⟩ := of_answer? hpruned
  obtain ⟨same, full, other, hsame, hmake', hother, -, -⟩ := of_answer? hfull
  obtain rfl := Except.ok.inj hsame
  have hbuilt := Network.built_of_assemble hassembled
  replace hsafe : network.DominanceSafe := by simpa [Except.toOption] using hsafe
  exact ⟨network, hbuilt, hsafe, pruned, full, offer, other, hmake, hmake', hoffer, hother,
    (price_unchanged_by_dominance hbuilt ⟨1, 0, true⟩ (le_refl 0) hmake hmake' hoffer
      hother).2.2 hsafe⟩

/-- Whether dominance changes the answer to some duals. -/
def DominanceMatters (network : Network Int Rat) : Prop :=
  ∃ (settings : PricingSettings Rat) (pruned full : PathSearch Int Rat) (fuel : Nat)
    (duals : List Rat) (offer other : Offer Rat), settings.maxLabels = 0 ∧
      make network none { settings with useDominance := true } = .ok pruned ∧
      make network none { settings with useDominance := false } = .ok full ∧
      (pruned.price fuel duals).2 = .ok offer ∧ (full.price fuel duals).2 = .ok other ∧
      offer.status ≠ other.status ∧ offer.reducedCost ≠ other.reducedCost

/-- Answers that differ show that dominance matters. -/
theorem dominanceMatters_of_answers {assembled : Except Fault (Network Int Rat)} {fuel : Nat}
    {duals : List Rat} {unitCost cost bill : Rat}
    (hpruned : answer? assembled ⟨unitCost, 0, true⟩ fuel duals = some (.infeasible, cost))
    (hfull : answer? assembled ⟨unitCost, 0, false⟩ fuel duals = some (.optimal, bill))
    (hne : cost ≠ bill) : ∃ network, assembled = .ok network ∧ DominanceMatters network := by
  obtain ⟨network, pruned, offer, rfl, hmake, hoffer, hstatus, rfl⟩ := of_answer? hpruned
  obtain ⟨same, full, other, hsame, hmake', hother, hstatus', rfl⟩ := of_answer? hfull
  obtain rfl := Except.ok.inj hsame
  refine ⟨network, rfl, ⟨unitCost, 0, true⟩, pruned, full, fuel, duals, offer, other, rfl, hmake,
    hmake', hoffer, hother, ?_, hne⟩
  rw [hstatus, hstatus']
  decide

/-- Dominance does change answers: on a network whose lower bound is zero, once a resource is given
back, and on one without negative consumption, once its positive lower bound spares the source. In
both, a route is missed and nothing is offered. -/
theorem dominance_misses_routes :
    (∃ network : Network Int Rat, network.Built ∧
      (∀ window ∈ network.windows, ∀ low ∈ window.lower, low ≤ 0) ∧ DominanceMatters network) ∧
    ∃ network : Network Int Rat, network.Built ∧
      (∀ arc ∈ network.arcs, ∀ amount ∈ arc.consumption, 0 ≤ amount) ∧
      DominanceMatters network := by
  constructor
  · generalize hassembled : Network.assemble [⟨some 0, some 10, .null⟩] 3 0 2
      [(0, 1, 0, [0], none), (0, 1, 0, [5], none), (1, 2, 0, [-3], some 0)] = assembled
    have hlower : (assembled.toOption.all fun network =>
        network.windows.all (·.lower.all (· ≤ 0))) = true := by
      rw [← hassembled]
      decide +kernel
    have hpruned : answer? assembled ⟨1, 0, true⟩ 9 [2] = some (.infeasible, 1) := by
      rw [← hassembled]
      decide +kernel
    have hfull : answer? assembled ⟨1, 0, false⟩ 9 [2] = some (.optimal, -1) := by
      rw [← hassembled]
      decide +kernel
    obtain ⟨network, rfl, hmatters⟩ := dominanceMatters_of_answers hpruned hfull (by decide)
    simp only [Except.toOption, Option.all_some, List.all_eq_true, Option.all_eq_true,
      decide_eq_true_eq] at hlower
    exact ⟨network, Network.built_of_assemble hassembled, hlower, hmatters⟩
  · generalize hassembled : Network.assemble [⟨some 5, some 10, .null⟩] 2 0 1
      [(0, 0, 0, [5], some 0), (0, 1, 0, [2], none)] = assembled
    have hnonneg : (assembled.toOption.all fun network =>
        network.arcs.all (·.consumption.all (0 ≤ ·))) = true := by
      rw [← hassembled]
      decide +kernel
    have hpruned : answer? assembled ⟨1, 0, true⟩ 9 [-2] = some (.infeasible, 1) := by
      rw [← hassembled]
      decide +kernel
    have hfull : answer? assembled ⟨1, 0, false⟩ 9 [-2] = some (.optimal, 3) := by
      rw [← hassembled]
      decide +kernel
    obtain ⟨network, rfl, hmatters⟩ := dominanceMatters_of_answers hpruned hfull (by decide)
    simp only [Except.toOption, Option.all_some, Array.all_eq_true_iff_forall_mem,
      List.all_eq_true, decide_eq_true_eq] at hnonneg
    exact ⟨network, Network.built_of_assemble hassembled, hnonneg, hmatters⟩

end PathSearch

end PatternCovering
