import PatternCovering.Proofs.Network.Calls
import PatternCovering.Proofs.PathSearch.Limit

/-!
# The lookups of a path search

A search looks into lists of many kinds: the duals, the counts of a pattern, the arcs and their adjusted
costs, the arcs and the live labels at each node, the flags of the nodes that wait, and the labels
created so far. A position that is before the start or beyond the end of its list is looked up nowhere:
neither at the points that a search comes through, whatever costs and windows are, nor when a pattern
is read off at its end.

Where costs and windows are numbers, nothing else goes wrong either. This holds on the network that any
calls leave: a search has a price as soon as it ends, and that is an offer with a count for each item.
Whether it ends is not said here. Plain data has one exception, a count so large that it has no double.
-/

namespace PatternCovering

namespace Network

variable {α : Type} [Quantity α] [Numeric α] {network : Network Int α}

/-- Whether the cost and the consumption that a call gives are numbers. -/
def Call.IsNumeric : Call α → Prop
  | .addArc _ _ cost consumption _ _ => Numeric.IsNumber cost ∧
      ∀ amounts ∈ consumption, ∀ amount ∈ amounts, Numeric.IsNumber amount
  | _ => True

/-- The amounts of a network are numbers if those of its arcs and windows are known to be. -/
theorem IsNumeric.of_eq {changed : Network Int α} (h : network.IsNumeric)
    (harcs : changed.arcs = network.arcs) (hwindows : changed.windows = network.windows) :
    changed.IsNumeric :=
  ⟨harcs ▸ h.cost, harcs ▸ h.consumption, hwindows ▸ h.windows⟩

/-- A further arc of numbers keeps the amounts of a network numbers. -/
theorem IsNumeric.push (h : network.IsNumeric) {arc : Arc Int α} (hcost : Numeric.IsNumber arc.cost)
    (hconsumption : ∀ amount ∈ arc.consumption, Numeric.IsNumber amount) :
    IsNumeric { network with arcs := network.arcs.push arc } where
  cost other hother := by
    rcases Array.mem_push.mp hother with hold | rfl
    · exact h.cost other hold
    · exact hcost
  consumption other hother := by
    rcases Array.mem_push.mp hother with hold | rfl
    · exact h.consumption other hold
    · exact hconsumption
  windows := h.windows

/-- An arc of numbers, or one without consumption, keeps the amounts of a network numbers, also if it
is refused. -/
theorem IsNumeric.addArc (h : network.IsNumeric) {source target : Int} {cost : α}
    {consumption : Option (List α)} {item : Option Int} {attributes : Table Datum}
    (hcost : Numeric.IsNumber cost)
    (hconsumption : ∀ amounts ∈ consumption, ∀ amount ∈ amounts, Numeric.IsNumber amount) :
    (network.addArc source target cost consumption item attributes).1.IsNumeric := by
  have hamounts : ∀ amount ∈ consumption.getD (List.replicate network.numResources Quantity.zero),
      Numeric.IsNumber amount := by
    cases consumption with
    | none =>
      intro amount hamount
      rw [List.eq_of_mem_replicate hamount]
      exact Numeric.isNumber Numeric.zero
    | some amounts => exact hconsumption amounts rfl
  simp only [Network.addArc]
  split
  · exact h
  · split
    · exact h.push hcost hamounts
    · exact (h.push hcost hamounts).of_eq rfl rfl

omit [Numeric α] in
/-- A call leaves the arcs and the windows, unless it is one for an arc. -/
theorem arcs_apply (network : Network Int α) (call : Call α) :
    (∃ source target cost consumption item attributes,
      call = .addArc source target cost consumption item attributes) ∨
    ((call.apply network).1.arcs = network.arcs ∧
      (call.apply network).1.windows = network.windows) := by
  cases call with
  | addNode name =>
    obtain ⟨text, -, hadded⟩ := network.addNode_givenName name
    rw [Call.apply, hadded]
    cases network.node? (.text text) <;> exact Or.inr ⟨rfl, rfl⟩
  | addSource name =>
    obtain ⟨text, -, hadded⟩ := network.addNode_givenName name
    rw [Call.apply, addSource, hadded]
    cases network.source <;> cases network.node? (.text text) <;> exact Or.inr ⟨rfl, rfl⟩
  | addSink name =>
    obtain ⟨text, -, hadded⟩ := network.addNode_givenName name
    rw [Call.apply, addSink, hadded]
    cases network.sink <;> cases network.node? (.text text) <;> exact Or.inr ⟨rfl, rfl⟩
  | setSource node =>
    rw [Call.apply, setSource]
    cases network.checkNode "Source" node <;> exact Or.inr ⟨rfl, rfl⟩
  | setSink node =>
    rw [Call.apply, setSink]
    cases network.checkNode "Sink" node <;> exact Or.inr ⟨rfl, rfl⟩
  | addArc source target cost consumption item attributes => exact Or.inl ⟨_, _, _, _, _, _, rfl⟩

/-- A call with numbers keeps the amounts of a network numbers, also if it is refused. -/
theorem IsNumeric.apply (h : network.IsNumeric) {call : Call α} (hcall : call.IsNumeric) :
    (call.apply network).1.IsNumeric := by
  rcases network.arcs_apply call with ⟨_, _, _, _, _, _, rfl⟩ | ⟨harcs, hwindows⟩
  · exact h.addArc hcall.1 hcall.2
  · exact h.of_eq harcs hwindows

/-- Calls with numbers on a network without nodes, whose windows have numbers as bounds, leave one
whose amounts are numbers. -/
theorem isNumeric_applyAll {windows : List (Window α)}
    (hwindows : ∀ window ∈ windows, window.IsNumeric) {calls : List (Call α)}
    (hcalls : ∀ call ∈ calls, call.IsNumeric) :
    (({ windows } : Network Int α).applyAll calls).IsNumeric := by
  have hfirst : ({ windows } : Network Int α).IsNumeric := ⟨by simp, by simp, hwindows⟩
  generalize ({ windows } : Network Int α) = network at hfirst ⊢
  induction calls generalizing network with
  | nil => exact hfirst
  | cons call rest ih =>
    obtain ⟨hcall, hrest⟩ := List.forall_mem_cons.mp hcalls
    exact ih hrest _ (hfirst.apply hcall)

end Network

namespace PathSearch

variable {α : Type} [Quantity α] {search : PathSearch Int α} {duals : List α} {costs : Array α}

/-- The lookups that a search makes at each of its points: every position that is looked up, with the
size of each list in which it is.

The items of the arcs are looked up among the duals and among the counts. At the start the source is
looked up, and between two visits the next node that waits. In a visit the labels to be looked at are,
and at its end those that are swept. Along an arc these are the positions listed at the node, the end
of the arc, and the live labels with which the new one is compared. At the end of a search it is the
sink with its live labels, and from label to label the predecessor and the arc. -/
inductive Looks (search : PathSearch Int α) (duals : List α) (costs : Array α) :
    Config α → (position : Int) → (size : Nat) → Prop
  | item {config : Config α} {arc : Arc Int α} {item : Int} {size : Nat}
    (harc : arc ∈ search.network.arcs) (hitem : item ∈ arc.item)
    (hsize : size ∈ [duals.length, search.numItems.toNat]) :
    Looks search duals costs config item size
  | source {size : Nat} (hsize : size ∈ [search.start.waiting.size, search.start.pool.live.size]) :
    Looks search duals costs ⟨.idle, search.start⟩ search.source size
  | waiting {state : State Int α} {node : Nat} {rest : List Nat} {size : Nat}
    (hqueue : state.queue = node :: rest)
    (hsize : size ∈ [state.waiting.size, state.pool.live.size, search.network.outgoing.size]) :
    Looks search duals costs ⟨.idle, state⟩ node size
  | looked {state : State Int α} {node id : Nat} {todo : List Nat} (hid : id ∈ todo) :
    Looks search duals costs ⟨.visiting node todo, state⟩ id state.pool.arena.size
  | swept {state : State Int α} {node : Nat} :
    Looks search duals costs ⟨.visiting node [], state⟩ node state.pool.live.size
  | rival {state : State Int α} {node id : Nat} (hlive : id ∈ state.pool.liveAt node) :
    Looks search duals costs ⟨.visiting node [], state⟩ id state.pool.arena.size
  | listed {state : State Int α} {node id place : Nat} {todo : List Nat} {label : Label Int α}
    {arcs : List (Arc Int α × α)} {size : Nat} (hplace : place ∈ search.network.leaving node)
    (hsize : size ∈ [search.network.arcs.size, costs.size]) :
    Looks search duals costs ⟨.extending node todo id label arcs, state⟩ place size
  | target {state : State Int α} {node id : Nat} {todo : List Nat} {label : Label Int α}
    {arc : Arc Int α} {price : α} {arcs : List (Arc Int α × α)} {size : Nat}
    (hsize : size ∈ [state.pool.live.size, state.waiting.size]) :
    Looks search duals costs ⟨.extending node todo id label ((arc, price) :: arcs), state⟩
      arc.target size
  | compared {state : State Int α} {node id place other : Nat} {todo : List Nat}
    {label : Label Int α} {arc : Arc Int α} {price : α} {arcs : List (Arc Int α × α)}
    (htarget : arc.target = (place : Int)) (hlive : other ∈ state.pool.liveAt place) :
    Looks search duals costs ⟨.extending node todo id label ((arc, price) :: arcs), state⟩
      other state.pool.arena.size
  | sink {state : State Int α} :
    Looks search duals costs ⟨.idle, state⟩ search.sink state.pool.live.size
  | arrived {state : State Int α} {id : Nat} (hlive : id ∈ state.pool.liveAt search.sink) :
    Looks search duals costs ⟨.idle, state⟩ id state.pool.arena.size
  | predecessor {state : State Int α} {label : Label Int α} {previous : Int}
    (hlabel : label ∈ state.pool.arena) (hprevious : previous ∈ label.predecessor) :
    Looks search duals costs ⟨.idle, state⟩ previous state.pool.arena.size
  | arc {state : State Int α} {label : Label Int α} {index : Int}
    (hlabel : label ∈ state.pool.arena) (hindex : index ∈ label.arc) :
    Looks search duals costs ⟨.idle, state⟩ index search.network.arcs.size

/-- Whether a position counts from the start of a list and is inside it. -/
structure InRange (position : Int) (size : Nat) : Prop where
  nonneg : 0 ≤ position
  lt : position < size

/-- A place before the end of a list is in its range. -/
theorem inRange_natCast {place size : Nat} (h : place < size) : InRange place size :=
  ⟨Int.natCast_nonneg _, Int.ofNat_lt.mpr h⟩

omit [Quantity α] in
/-- A label of the history is found among the labels created so far. -/
theorem lt_size_arena {pool : LabelPool Int α} {id : Nat} {label : Label Int α}
    (h : pool.history[id]? = some label) : id < pool.arena.size := by
  have hlt := (List.getElem?_eq_some_iff.mp h).1
  rwa [LabelPool.length_history] at hlt

/-- A live label is found among the labels created so far. -/
theorem Books.live_lt {config : Config α} (h : Books search costs config) {node id : Nat}
    (hlive : id ∈ config.state.pool.liveAt node) : id < config.state.pool.arena.size := by
  obtain ⟨label, hlabel, -⟩ := h.standsAt hlive
  exact lt_size_arena hlabel

/-- The flags, the live labels and the listed arcs are kept for each node. -/
theorem Reached.size_eq (hwell : search.WellFormed) {config : Config α}
    (h : Reached search costs config) {size : Nat}
    (hsize : size ∈ [config.state.waiting.size, config.state.pool.live.size,
      search.network.outgoing.size]) : size = search.network.numNodes := by
  have hwaiting := (h.worklist hwell).size_waiting
  have hlive := (h.books hwell).size_live
  have hlisted := hwell.network.size_outgoing
  simp only [List.mem_cons, List.not_mem_nil, or_false] at hsize
  rcases hsize with rfl | rfl | rfl <;> assumption

/-- The predecessor of a label is an older label, and its arc an arc of the network. -/
theorem Reached.previous_and_arc (hwell : search.WellFormed) {config : Config α}
    (h : Reached search costs config) {label : Label Int α}
    (hlabel : label ∈ config.state.pool.arena) :
    (∀ previous ∈ label.predecessor, InRange previous config.state.pool.arena.size) ∧
      ∀ index ∈ label.arc, InRange index search.network.arcs.size := by
  obtain ⟨id, hid⟩ := Array.mem_iff_getElem?.mp hlabel
  have hhistory : config.state.pool.history[id]? = some label.unflagged := by
    rw [LabelPool.getElem?_history, hid]
    rfl
  obtain ⟨path, hpath⟩ := h.spells hwell hhistory
  cases hpath with
  | first hfirst =>
    rw [hhistory, Option.some.injEq] at hfirst
    have hpredecessor : label.predecessor = none := congrArg Label.predecessor hfirst
    have harc : label.arc = none := congrArg Label.arc hfirst
    simp [hpredecessor, harc]
  | @next previous id node path before known arc price hpath hlt hbefore hknown hnode harc
      hpredecessor hindex =>
    rw [hhistory, Option.some.injEq] at hknown
    subst hknown
    change label.predecessor = some (previous : Int) at hpredecessor
    change label.arc = some arc.index at hindex
    obtain ⟨-, -, hfound, -⟩ := hwell.mem_arcs harc
    have hplace := (Array.getElem?_eq_some_iff.mp hfound).1
    have hself := hwell.network.index_eq _ arc hfound
    refine ⟨fun other hother => ?_, fun index hother => ?_⟩
    · rw [hpredecessor, Option.mem_def, Option.some.injEq] at hother
      exact hother ▸ inRange_natCast (lt_size_arena hbefore)
    · rw [hindex, Option.mem_def, Option.some.injEq] at hother
      rw [← hother, hself]
      exact inRange_natCast hplace

omit [Quantity α] in
/-- The items of the arcs are among the duals and among the counts. -/
theorem WellFormed.item_inRange (hwell : search.WellFormed)
    (hlength : (duals.length : Int) = search.numItems) {arc : Arc Int α}
    (harc : arc ∈ search.network.arcs) {item : Int} (hitem : item ∈ arc.item) {size : Nat}
    (hsize : size ∈ [duals.length, search.numItems.toNat]) : InRange item size := by
  have hnonneg := hwell.network.item_nonneg arc harc item hitem
  have hlt := hwell.item_lt arc harc item hitem
  refine ⟨hnonneg, ?_⟩
  simp only [List.mem_cons, List.not_mem_nil, or_false] at hsize
  rcases hsize with rfl | rfl <;> omega

/-- At every point of a search each position that is looked up is in the range of its list. -/
theorem Reached.inRange (hwell : search.WellFormed)
    (hlength : (duals.length : Int) = search.numItems)
    (hcosts : costs.size = search.network.arcs.size) {config : Config α}
    (h : Reached search costs config) {position : Int} {size : Nat}
    (hlook : Looks search duals costs config position size) : InRange position size := by
  have hbooks := h.books hwell
  have hnode : ∀ (node : Nat) {size : Nat}, node < search.network.numNodes →
      size ∈ [config.state.waiting.size, config.state.pool.live.size,
        search.network.outgoing.size] → InRange node size :=
    fun node _ hlt hsize => inRange_natCast (h.size_eq hwell hsize ▸ hlt)
  cases hlook with
  | item harc hitem hsize => exact hwell.item_inRange hlength harc hitem hsize
  | source hsize => exact hnode _ hwell.source_lt (List.mem_append_left [_] hsize)
  | waiting hqueue hsize =>
    exact hnode _ (hbooks.queue_lt _ (hqueue ▸ List.mem_cons_self)) hsize
  | looked hid =>
    obtain ⟨label, hlabel, -⟩ := hbooks.phase.2 _ hid
    exact inRange_natCast (lt_size_arena hlabel)
  | swept => exact hnode _ hbooks.phase.1 (by simp)
  | rival hlive => exact inRange_natCast (hbooks.live_lt hlive)
  | listed hplace hsize =>
    obtain ⟨arc, harc, -⟩ := (hwell.network.mem_leaving _ _).mp hplace
    have hlt := (Array.getElem?_eq_some_iff.mp harc).1
    simp only [List.mem_cons, List.not_mem_nil, or_false] at hsize
    rcases hsize with rfl | rfl
    · exact inRange_natCast hlt
    · exact inRange_natCast (hcosts ▸ hlt)
  | @target state node id todo label arc price arcs size hsize =>
    obtain ⟨-, -, -, -, hsuffix⟩ := hbooks.phase
    have hmem : (arc, price) ∈ search.arcsFrom costs node := hsuffix.mem List.mem_cons_self
    have hend := hwell.network.hasTarget arc (hwell.mem_arcs hmem).1
    have hsame : size = search.network.numNodes := h.size_eq hwell (by
      simp only [List.mem_cons, List.not_mem_nil, or_false] at hsize ⊢
      tauto)
    exact ⟨hend.1, hsame ▸ hend.2⟩
  | compared htarget hlive => exact inRange_natCast (hbooks.live_lt hlive)
  | sink => exact hnode _ hwell.sink_lt (by simp)
  | arrived hlive => exact inRange_natCast (hbooks.live_lt hlive)
  | predecessor hlabel hprevious => exact (h.previous_and_arc hwell hlabel).1 _ hprevious
  | arc hlabel hindex => exact (h.previous_and_arc hwell hlabel).2 _ hindex

/-- There is an adjusted cost for each arc. -/
theorem size_of_arcCosts (h : search.arcCosts duals = .ok costs) :
    costs.size = search.network.arcs.size := by
  rw [arcCosts, Array.mapM_eq_mapM_toList] at h
  obtain ⟨prices, hprices, rfl⟩ := map_eq_ok.mp h
  simpa using length_of_mapM_eq_ok hprices

omit [Quantity α] in
/-- No arc that is listed at a node is passed over. -/
theorem WellFormed.map_index_arcsFrom (hwell : search.WellFormed)
    (hcosts : costs.size = search.network.arcs.size) (node : Nat) :
    (search.arcsFrom costs node).map (fun entry => entry.1.index) =
      (search.network.leaving node).map Int.ofNat := by
  change ((search.network.leaving node).filterMap _).map _ = _
  rw [List.map_filterMap, ← List.filterMap_eq_map]
  refine List.filterMap_congr fun index hindex => ?_
  obtain ⟨arc, harc, -⟩ := (hwell.network.mem_leaving _ _).mp hindex
  have hlt : index < costs.size := hcosts ▸ (Array.getElem?_eq_some_iff.mp harc).1
  simp only [harc, Array.getElem?_eq_getElem hlt, Option.map_some, hwell.network.index_eq _ _ harc,
    Function.comp_apply, Int.ofNat_eq_natCast]

/-- No label that is live at a node is passed over. -/
theorem Books.map_id_liveLabels {config : Config α} (h : Books search costs config) (node : Nat) :
    ((config.state.pool.liveAt node).toList.filterMap
      (fun id => config.state.pool.arena[id]?.map (id, ·))).map (·.1) =
        (config.state.pool.liveAt node).toList := by
  have hfound : ∀ id ∈ (config.state.pool.liveAt node).toList,
      (config.state.pool.arena[id]?.map (id, ·)).map (·.1) = some id := by
    intro id hid
    have hlt := h.live_lt (Array.mem_toList_iff.mp hid)
    simp [Array.getElem?_eq_getElem hlt]
  rw [List.map_filterMap, List.filterMap_congr hfound, List.filterMap_some]

section Prices

variable {search : PathSearch Int Datum} {given duals : List Datum} {costs : Array Datum}

/-- Where the limit on labels is a number, it is known whether there is room for another label. -/
theorem exists_full {limit : Number} (hlimit : search.settings.maxLabels = .number limit)
    (pool : LabelPool Int Datum) : ∃ answer, search.full pool = .ok answer := by
  have hasked : search.full pool = if (Number.int 0).lt limit then
      .ok (limit.le (.int pool.numCreated)) else .ok false := by
    rw [full, hlimit]
    rfl
  rw [hasked]
  split <;> exact ⟨_, rfl⟩

/-- At the end of a search there is an offer with a count for each item, unless one of the counts is
too large to be weighed. -/
theorem Reached.offerAt_cases_plain (hnumeric : search.IsNumeric costs)
    (hcost : Numeric.IsNumber search.settings.unitCost)
    (hlength : (duals.length : Int) = search.numItems) (hduals : ∀ dual ∈ duals, Numeric.IsReal dual)
    {state : State Int Datum} (h : Reached search costs ⟨.idle, state⟩) :
    (∃ offer, search.offerAt duals state = .ok offer ∧
      (offer.column.counts.length : Int) = search.numItems) ∨
      (2 ^ 256 ≤ state.pool.numCreated ∧
        search.offerAt duals state = .error .integerTooLarge) := by
  rw [offerAt]
  rcases hbest : search.bestAtSink? state.pool with - | label
  · refine Or.inl ⟨_, rfl, ?_⟩
    have hzeros := Int.toNat_of_nonneg hnumeric.well.numItems_nonneg
    simpa [Offer.nothing, Offer.ofColumn, Column.empty] using hzeros
  · obtain ⟨column, hcolumn, hnumber, hsize, hcopies⟩ := h.exists_columnOf hnumeric hcost hbest
    have hmatch : duals.length = column.counts.length := by omega
    simp only [hcolumn, bind, Except.bind]
    rcases Numeric.reducedCostUnder_cases hmatch hduals
      (fun dual hdual count _ => Numeric.mul?_count (hduals dual hdual) count) hnumber with
      ⟨reducedCost, hreduced⟩ | ⟨fault, rfl, hreduced⟩
    · rw [hreduced]
      exact Or.inl ⟨_, rfl, hsize⟩
    · rw [hreduced]
      refine Or.inr ⟨?_, rfl⟩
      by_contra hfew
      obtain ⟨reducedCost, hsome⟩ := Numeric.reducedCostUnder_ok
        (Numeric.countsUpTo_datum (Nat.lt_of_not_le hfew)) hmatch hduals hcopies hnumber
      rw [hreduced] at hsome
      cases hsome

/-- What a price can come to: the search has not ended in so many visits, or it offers a column with a
count for each item. Of so many labels that there can never be as many, one may have a count that is
too large to be weighed. -/
inductive Comes (search : PathSearch Int Datum) (final : State Int Datum) :
    Except Fault (Offer Datum) → Prop
  | unfinished (h : final.isFinished = false) : Comes search final (.error .searchUnfinished)
  | offered {offer : Offer Datum} (hfinished : final.isFinished = true)
    (hlength : (offer.column.counts.length : Int) = search.numItems) :
    Comes search final (.ok offer)
  | uncounted (hfinished : final.isFinished = true) (hmany : 2 ^ 256 ≤ final.pool.numCreated) :
    Comes search final (.error .integerTooLarge)

/-- A search that has not ended has no price yet. -/
theorem explore_of_unfinished {fuel : Nat} (hcosts : search.arcCosts duals = .ok costs)
    (hfine : ¬ (search.run costs fuel search.start).Failed)
    (h : (search.run costs fuel search.start).isFinished = false) :
    search.explore fuel duals = .error .searchUnfinished := by
  simp only [explore, hcosts, bind, Except.bind]
  split
  · next cause hcause => exact absurd ⟨cause, hcause⟩ hfine
  · rw [if_neg (by simp [h])]

/-- What the price of a search of numbers comes to. -/
theorem comes_price (hnumeric : search.IsNumeric costs)
    (hcost : Numeric.IsNumber search.settings.unitCost)
    (hread : readDuals search.numItems given = .ok duals)
    (hcosts : search.arcCosts duals = .ok costs) (fuel : Nat)
    (hfine : ¬ (search.run costs fuel search.start).Failed) :
    Comes search (search.run costs fuel search.start) (search.price fuel given).2 := by
  have hlength := length_of_readDuals hread
  have hreal := Numeric.isReal_of_readDuals hread
  rcases hfinished : (search.run costs fuel search.start).isFinished with - | -
  · have hexplore := explore_of_unfinished hcosts hfine hfinished
    simp only [price, priceWithLabels, hread, priceReal, hexplore]
    exact .unfinished hfinished
  · have hexplore := explore_of_run hcosts hfine hfinished
    have hreached : Reached search costs ⟨.idle, search.run costs fuel search.start⟩ :=
      moves_run fuel hfine
    rcases hreached.offerAt_cases_plain hnumeric hcost hlength hreal with
      ⟨found, hfound, hsize⟩ | ⟨hmany, hfound⟩
    · simp only [price, priceWithLabels_of_offerAt hread hexplore hfound]
      exact .offered hfinished hsize
    · simp only [price, priceWithLabels, hread, priceReal, hexplore, hfound]
      exact .uncounted hfinished hmany

/-- What holds of a search for a vector of duals: the duals are read and the arcs have adjusted costs;
at every point of the search each position that is looked up is in the range of its list, so that no
listed arc and no live label is passed over; the state after some visits is such a point, and the price
comes to an offer once the search has ended, apart from a count that has no double. -/
structure LooksInside (search : PathSearch Int Datum) (given duals : List Datum)
    (costs : Array Datum) : Prop where
  read : readDuals search.numItems given = .ok duals
  priced : search.arcCosts duals = .ok costs
  inRange : ∀ config, Reached search costs config → ∀ position size,
    Looks search duals costs config position size → InRange position size
  listed : ∀ node, (search.arcsFrom costs node).map (fun entry => entry.1.index) =
    (search.network.leaving node).map Int.ofNat
  live : ∀ config : Config Datum, Reached search costs config → ∀ node,
    ((config.state.pool.liveAt node).toList.filterMap
      (fun id => config.state.pool.arena[id]?.map (id, ·))).map (·.1) =
        (config.state.pool.liveAt node).toList
  reached : ∀ fuel, Reached search costs ⟨.idle, search.run costs fuel search.start⟩
  comes : ∀ fuel, Comes search (search.run costs fuel search.start) (search.price fuel given).2

/-- On a network after whatever calls with numbers, refused ones among them, a search that is made
looks up nothing outside its lists and makes an offer as soon as it ends, for every vector of numbers as
duals that has one for each item. Only a count that has no double stands in the way of an offer. -/
theorem exists_looksInside {windows : List (Window Datum)}
    (hwindows : ∀ window ∈ windows, window.IsNumeric) {calls : List (Network.Call Datum)}
    (hcalls : ∀ call ∈ calls, call.IsNumeric) {numItems : Option Int}
    {settings : PricingSettings Datum}
    (hmake : make (Network.Indexed.performAll { windows } calls).toNetwork numItems settings =
      .ok search)
    (hcost : Numeric.IsNumber settings.unitCost) {limit : Number}
    (hlimit : settings.maxLabels = .number limit)
    (hlength : (given.length : Int) = search.numItems)
    (hgiven : ∀ dual ∈ given, Numeric.IsNumber dual) :
    ∃ duals costs, LooksInside search given duals costs := by
  obtain ⟨-, hsame, -⟩ := Network.Indexed.after_calls windows calls
  rw [hsame] at hmake
  obtain ⟨hwell, hnetwork, rfl⟩ :=
    wellFormed_of_make ((Network.Built.empty windows).applyAll calls).wellFormed hmake
  have hamounts : search.network.IsNumeric :=
    hnetwork ▸ Network.isNumeric_applyAll hwindows hcalls
  obtain ⟨duals, hread⟩ := exists_readDuals hlength hgiven
  have hduals := length_of_readDuals hread
  obtain ⟨costs, hcosts, hprices⟩ :=
    hwell.arcCosts_ok hamounts hduals (Numeric.isReal_of_readDuals hread)
  have hnumeric : search.IsNumeric costs := ⟨hwell, hamounts, hprices, exists_full hlimit⟩
  have hfine : ∀ fuel, ¬ (search.run costs fuel search.start).Failed := by
    intro fuel
    obtain ⟨visits, hsteady, -⟩ := (steady_start hwell).run hnumeric fuel
    exact hsteady.fine
  exact ⟨duals, costs, hread, hcosts,
    fun config hconfig position size hlook =>
      hconfig.inRange hwell hduals (size_of_arcCosts hcosts) hlook,
    hwell.map_index_arcsFrom (size_of_arcCosts hcosts),
    fun config hconfig => (hconfig.books hwell).map_id_liveLabels,
    fun fuel => moves_run fuel (hfine fuel),
    fun fuel => comes_price hnumeric hcost hread hcosts fuel (hfine fuel)⟩

/-- Calls for three nodes in a row with a loop at the middle one that covers an item. The name of the
third call is taken, and one arc ends where no node is. -/
def loopCalls : List (Network.Call Datum) :=
  [.addSource none, .addNode none, .addNode (some "0"), .addSink none,
    .addArc 0 1 (.float 0.0) none none [], .addArc 1 1 (.float 1.0) (some [.float 1.0]) (some 0) [],
    .addArc 1 5 (.float 0.0) none none [], .addArc 1 2 (.float 0.0) none none []]

/-- The window in which the loop can be gone around twice at most. -/
def twoTurns : Window Datum := ⟨some (.float 0.0), some (.float 2.0), .text "turns"⟩

/-- Doubles are numbers. -/
theorem isNumber_float (x : Float) : Numeric.IsNumber (Datum.float x) := ⟨.float x, rfl, rfl⟩

/-- The amounts of these calls are doubles. -/
theorem isNumeric_loopCalls : ∀ call ∈ loopCalls, call.IsNumeric := by
  simp [loopCalls, Network.Call.IsNumeric, isNumber_float]

/-- The bounds of this window are doubles. -/
theorem isNumeric_twoTurns : ∀ window ∈ [twoTurns], window.IsNumeric := by
  rw [List.forall_mem_singleton]
  exact ⟨fun bound hbound => Option.some.inj hbound ▸ isNumber_float 0.0,
    fun bound hbound => Option.some.inj hbound ▸ isNumber_float 2.0⟩

/-- The search after these calls looks up nothing outside its lists, and offers two copies of the item
of the loop. -/
theorem exists_looksInside_loopCalls :
    ∃ (search : PathSearch Int Datum) (duals : List Datum) (costs : Array Datum),
      make (Network.Indexed.performAll { windows := [twoTurns] } loopCalls).toNetwork none
        ⟨.float 1.0, .int 0, true⟩ = .ok search ∧
      LooksInside search [.float 3.0] duals costs ∧
      (search.price 6 [.float 3.0]).2.toOption.map (·.column.counts) = some [2] := by
  generalize hnetwork :
    (Network.Indexed.performAll { windows := [twoTurns] } loopCalls).toNetwork = network
  have hrun : (make network none ⟨.float 1.0, .int 0, true⟩).toOption.map (fun search =>
      (search.numItems, (search.price 6 [.float 3.0]).2.toOption.map (·.column.counts))) =
        some (1, some [2]) := by
    rw [← hnetwork]
    decide +kernel
  obtain ⟨search, hsearch, hanswer⟩ := Option.map_eq_some_iff.mp hrun
  obtain ⟨hitems, hprice⟩ := Prod.mk.inj hanswer
  have hmake := toOption_eq_some.mp hsearch
  have hlength : (([Datum.float 3.0].length : Nat) : Int) = search.numItems := hitems.symm
  obtain ⟨duals, costs, hinside⟩ := exists_looksInside isNumeric_twoTurns isNumeric_loopCalls
    (hnetwork ▸ hmake) (isNumber_float 1.0) rfl hlength
    (List.forall_mem_singleton.mpr (isNumber_float 3.0))
  exact ⟨search, duals, costs, hmake, hinside, hprice⟩

end Prices

end PathSearch

end PatternCovering
