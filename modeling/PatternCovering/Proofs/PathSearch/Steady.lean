import PatternCovering.Proofs.Numeric
import PatternCovering.Proofs.PathSearch.Arena
import PatternCovering.Proofs.PathSearch.Worklist

/-!
# Searches that do not fail

Where costs, consumptions and the bounds of windows are numbers, the cost and the resources of every
label are real numbers, since they start at the real number zero and grow by numbers. Real numbers
can be added and compared, so that no step of a search fails. Among doubles this holds with infinities
and not-a-number as well.

Every step of a run that is not finished is one visit, and there are never more visits than labels.
-/

namespace PatternCovering

variable {α : Type} [Quantity α] [Numeric α]

open Numeric (IsNumber IsReal)

section Resources

/-- Whether the bounds of a window are numbers, where it has bounds. -/
structure Window.IsNumeric (window : Window α) : Prop where
  lower : ∀ bound ∈ window.lower, IsNumber bound
  upper : ∀ bound ∈ window.upper, IsNumber bound

/-- Whether the costs, consumptions and window bounds of a network are numbers. -/
structure Network.IsNumeric (network : Network Int α) : Prop where
  cost : ∀ arc ∈ network.arcs, IsNumber arc.cost
  consumption : ∀ arc ∈ network.arcs, ∀ amount ∈ arc.consumption, IsNumber amount
  windows : ∀ window ∈ network.windows, window.IsNumeric

/-- It is known whether a real number lies in a window. -/
theorem Window.contains_ok {window : Window α} (h : window.IsNumeric) {value : α}
    (hvalue : IsReal value) : ∃ answer, window.contains value = .ok answer := by
  have hnumber := Numeric.isNumber hvalue
  have habove : ∃ answer, aboveLower window.lower value = .ok answer := by
    rcases hlower : window.lower with - | bound
    · exact Numeric.le? hnumber hnumber
    · exact Numeric.le? (h.lower bound hlower) hnumber
  have hbelow : ∃ answer, belowUpper window.upper value = .ok answer := by
    rcases hupper : window.upper with - | bound
    · exact Numeric.le? hnumber hnumber
    · exact Numeric.le? hnumber (h.upper bound hupper)
  obtain ⟨above, habove⟩ := habove
  obtain ⟨below, hbelow⟩ := hbelow
  rw [contains, habove]
  cases above with
  | false => exact ⟨false, rfl⟩
  | true => exact ⟨below, hbelow⟩

/-- It is known whether real numbers lie in their windows. -/
theorem Window.containsAll_ok {windows : List (Window α)} (h : ∀ window ∈ windows, window.IsNumeric)
    {values : List α} (hvalues : ∀ value ∈ values, IsReal value) :
    ∃ answer, containsAll windows values = .ok answer := by
  induction windows generalizing values with
  | nil => exact ⟨true, by cases values <;> rfl⟩
  | cons window windows ih =>
    cases values with
    | nil => exact ⟨true, rfl⟩
    | cons value values =>
      obtain ⟨hwindow, hwindows⟩ := List.forall_mem_cons.mp h
      obtain ⟨hvalue, hvalues⟩ := List.forall_mem_cons.mp hvalues
      obtain ⟨inside, hinside⟩ := contains_ok hwindow hvalue
      rw [containsAll, hinside]
      cases inside with
      | false => exact ⟨false, rfl⟩
      | true => exact ih hwindows hvalues

/-- Real resources stay real along an arc. -/
theorem extendResources_ok {resources consumption : List α}
    (hresources : ∀ amount ∈ resources, IsReal amount)
    (hconsumption : ∀ amount ∈ consumption, IsNumber amount) :
    ∃ used, extendResources resources consumption = .ok used ∧ ∀ amount ∈ used, IsReal amount := by
  induction resources generalizing consumption with
  | nil => exact ⟨[], by cases consumption <;> rfl, by simp⟩
  | cons amount resources ih =>
    cases consumption with
    | nil => exact ⟨[], rfl, by simp⟩
    | cons use consumption =>
      obtain ⟨hamount, hresources⟩ := List.forall_mem_cons.mp hresources
      obtain ⟨huse, hconsumption⟩ := List.forall_mem_cons.mp hconsumption
      obtain ⟨sum, hsum, hreal⟩ := Numeric.add? (Numeric.isNumber hamount) huse
      obtain ⟨used, hused, hrest⟩ := ih hresources hconsumption
      refine ⟨sum :: used, ?_, List.forall_mem_cons.mpr ⟨hreal (Or.inl hamount), hrest⟩⟩
      rw [extendResources, hsum, hused]
      rfl

end Resources

namespace Label

/-- Whether the cost and the resources of a label are real numbers. -/
structure IsReal (label : Label Int α) : Prop where
  cost : Numeric.IsReal label.cost
  resources : ∀ amount ∈ label.resources, Numeric.IsReal amount

/-- Real amounts can be compared. -/
theorem noneAbove_ok {mine theirs : List α} (hmine : ∀ amount ∈ mine, Numeric.IsReal amount)
    (htheirs : ∀ amount ∈ theirs, Numeric.IsReal amount) :
    ∃ answer, noneAbove mine theirs = .ok answer := by
  induction mine generalizing theirs with
  | nil => exact ⟨true, by cases theirs <;> rfl⟩
  | cons first mine ih =>
    cases theirs with
    | nil => exact ⟨true, rfl⟩
    | cons second theirs =>
      obtain ⟨hfirst, hmine⟩ := List.forall_mem_cons.mp hmine
      obtain ⟨hsecond, htheirs⟩ := List.forall_mem_cons.mp htheirs
      obtain ⟨above, habove⟩ := Numeric.lt? (Numeric.isNumber hsecond) (Numeric.isNumber hfirst)
      rw [noneAbove, habove]
      cases above with
      | false => exact ih hmine htheirs
      | true => exact ⟨false, rfl⟩

/-- Labels of real costs and resources can be compared. -/
theorem dominates_ok {label other : Label Int α} (h : label.IsReal) (hother : other.IsReal) :
    ∃ answer, label.dominates other = .ok answer := by
  obtain ⟨above, habove⟩ :=
    Numeric.lt? (Numeric.isNumber hother.cost) (Numeric.isNumber h.cost)
  rw [dominates, habove]
  cases above with
  | false => exact noneAbove_ok h.resources hother.resources
  | true => exact ⟨false, rfl⟩

end Label

namespace LabelPool

variable {pool : LabelPool Int α}

/-- Whether all labels of a pool have real costs and resources. -/
def IsReal (pool : LabelPool Int α) : Prop := ∀ label ∈ pool.history, label.IsReal

/-- A label of the arena has real costs and resources. -/
theorem IsReal.label (h : pool.IsReal) {id : Nat} {label : Label Int α}
    (hlabel : pool.arena[id]? = some label) : label.IsReal := by
  have hmem : label.unflagged ∈ pool.history :=
    List.mem_map_of_mem (Array.mem_toList_iff.mpr (Array.mem_of_getElem? hlabel))
  exact ⟨(h _ hmem).cost, (h _ hmem).resources⟩

/-- Labels can be compared. -/
theorem IsReal.dominates_ok (h : pool.IsReal) (id other : Nat) :
    ∃ answer, pool.dominates id other = .ok answer := by
  rw [dominates]
  split
  · next label second hlabel hsecond => exact Label.dominates_ok (h.label hlabel) (h.label hsecond)
  · exact ⟨false, rfl⟩

/-- A label of the arena can be inserted at its node, and the number of nodes stays. -/
theorem IsReal.insert_ok (h : pool.IsReal) {id node : Nat} {label : Label Int α}
    (hlabel : pool.arena[id]? = some label) (hplace : label.node = (node : Int))
    (hnode : node < pool.live.size) (check : Bool) :
    ∃ after inserted, pool.insert id check = (after, .ok inserted) ∧
      after.live.size = pool.live.size :=
  LabelPool.insert_ok hlabel hplace hnode
    (fun other _ => ⟨h.dominates_ok other id, h.dominates_ok id other⟩) check

/-- A node can be swept, and the number of nodes stays. -/
theorem IsReal.sweep_ok (h : pool.IsReal) (node : Nat) :
    ∃ after count, pool.sweep node = (after, .ok count) ∧ after.live.size = pool.live.size :=
  LabelPool.sweep_ok fun first _ second _ => h.dominates_ok first second

end LabelPool

namespace PathSearch

variable {search : PathSearch Int α} {state : State Int α} {costs : Array α}

/-- What makes the steps of a search succeed: the network is in order, its amounts and the adjusted
costs are numbers, and it can be told whether there is room for another label. -/
structure IsNumeric (search : PathSearch Int α) (costs : Array α) : Prop where
  well : search.WellFormed
  network : search.network.IsNumeric
  costs : ∀ price ∈ costs, IsNumber price
  full : ∀ pool : LabelPool Int α, ∃ answer, search.full pool = .ok answer

/-- The dual of each item that an arc covers is found, and the adjusted costs are numbers. -/
theorem WellFormed.arcCosts_ok (hwell : search.WellFormed) (hnumeric : search.network.IsNumeric)
    {duals : List α} (hlength : (duals.length : Int) = search.numItems)
    (hduals : ∀ dual ∈ duals, IsReal dual) :
    ∃ costs, search.arcCosts duals = .ok costs ∧ ∀ price ∈ costs, IsNumber price := by
  have harcs : ∀ arc ∈ search.network.arcs.toList,
      ∃ price, arc.reducedCost (Position.entry duals) = .ok price ∧ IsNumber price := by
    intro arc harc
    rw [Array.mem_toList_iff] at harc
    have hcost := hnumeric.cost arc harc
    rcases hitem : arc.item with - | item
    · exact ⟨arc.cost, by rw [Arc.reducedCost, hitem], hcost⟩
    · have hnonneg := hwell.network.item_nonneg arc harc item hitem
      have hlt := hwell.item_lt arc harc item hitem
      have hplace : item.toNat < duals.length := by omega
      have hentry : Position.entry duals item = .ok duals[item.toNat] := by
        simp [Position.entry, Position.toInt, entryAt, entryAt?, hnonneg, hplace, bind, Except.bind]
      have hdual := hduals _ (List.getElem_mem hplace)
      obtain ⟨price, hprice, hreal⟩ := Numeric.sub? hcost (Numeric.isNumber hdual)
      refine ⟨price, ?_, Numeric.isNumber (hreal (Or.inr hdual))⟩
      simp only [Arc.reducedCost, hitem, hentry]
      exact hprice
  obtain ⟨prices, hprices, hnumbers⟩ := exists_mapM_eq_ok harcs
  refine ⟨prices.toArray, ?_, fun price hprice => hnumbers price (List.mem_toArray.mp hprice)⟩
  rw [arcCosts, Array.mapM_eq_mapM_toList, hprices]
  rfl

/-- The adjusted cost of an arc that leaves a node is a number. -/
theorem IsNumeric.price (h : search.IsNumeric costs) {node : Nat} {arc : Arc Int α} {price : α}
    (harc : (arc, price) ∈ search.arcsFrom costs node) : IsNumber price := by
  obtain ⟨i, -, -, hprice⟩ := mem_arcsFrom.mp harc
  exact h.costs price (Array.mem_of_getElem? hprice)

/-- The totals of a label along an arc are real numbers, and it is known whether they stay inside the
windows. -/
theorem IsNumeric.totals (h : search.IsNumeric costs) {label : Label Int α} (hlabel : label.IsReal)
    {node : Nat} {arc : Arc Int α} {price : α} (harc : (arc, price) ∈ search.arcsFrom costs node) :
    ∃ used within cost, extendResources label.resources arc.consumption = .ok used ∧
      Window.containsAll search.network.windows used = .ok within ∧
      Quantity.add? label.cost price = .ok cost ∧
      (∀ amount ∈ used, IsReal amount) ∧ IsReal cost := by
  obtain ⟨used, hused, hreal⟩ := extendResources_ok hlabel.resources
    (h.network.consumption arc (h.well.mem_arcs harc).1)
  obtain ⟨within, hwithin⟩ := Window.containsAll_ok h.network.windows hreal
  obtain ⟨cost, hcost, htotal⟩ := Numeric.add? (Numeric.isNumber hlabel.cost) (h.price harc)
  exact ⟨used, within, cost, hused, hwithin, hcost, hreal, htotal (Or.inl hlabel.cost)⟩

omit [Numeric α] in
/-- What becomes of a label along an arc, from its totals and from whether there is room. -/
theorem extension_of_totals {pool : LabelPool Int α} {label : Label Int α} {arc : Arc Int α}
    {price cost : α} {used : List α} {within full : Bool}
    (hused : extendResources label.resources arc.consumption = .ok used)
    (hwithin : Window.containsAll search.network.windows used = .ok within)
    (hcost : Quantity.add? label.cost price = .ok cost) (hfull : search.full pool = .ok full) :
    search.extension pool label arc price =
      .ok (if within then if full then .full else .inside used cost else .outside) := by
  cases within <;> cases full <;>
    simp [extension, hused, hwithin, hfull, hcost, bind, Except.bind, pure, Except.pure]

omit [Numeric α] in
/-- A label that grows along an arc adds the new label to the history. -/
theorem history_grow (search : PathSearch Int α) (state : State Int α) (label : Label Int α)
    (arc : Arc Int α) (used : List α) (cost : α) :
    (search.grow state label arc used cost).pool.history =
      state.pool.history ++ [newLabel state.pool label arc used cost] := by
  rcases pool_grow_cases search state label arc used cost with heq | heq
  · rw [heq, history_withExtension]
  · rw [heq, LabelPool.history_insert, history_withExtension]

/-- What every part of a visit keeps: the search has not failed, its labels are real, its pool lists
all nodes, and the visits are as many as before. -/
structure Steady (search : PathSearch Int α) (visits : Nat) (state : State Int α) : Prop where
  fine : ¬ state.Failed
  real : state.pool.IsReal
  size_live : state.pool.live.size = search.network.numNodes
  visits_eq : state.visits = visits

variable {visits : Nat}

/-- Extending a label along an arc keeps a search steady. -/
theorem Steady.extendAlong (hnumeric : search.IsNumeric costs) (h : Steady search visits state)
    {label : Label Int α} (hlabel : label.IsReal) {node : Nat} {arc : Arc Int α} {price : α}
    (harc : (arc, price) ∈ search.arcsFrom costs node) :
    Steady search visits (search.extendAlong label state arc price) := by
  rcases hstop : state.stop with - | stop
  · obtain ⟨used, within, cost, hused, hwithin, hcost, hresources, htotal⟩ :=
      hnumeric.totals hlabel harc
    obtain ⟨full, hfull⟩ := hnumeric.full state.pool
    simp only [PathSearch.extendAlong, hstop, Option.isSome_none, Bool.false_eq_true, if_false,
      extension_of_totals hused hwithin hcost hfull]
    cases within with
    | false => exact h
    | true =>
      cases full with
      | true =>
        refine ⟨?_, h.real, h.size_live, h.visits_eq⟩
        rintro ⟨cause, hcause⟩
        cases hcause
      | false =>
        have hend := hnumeric.well.network.hasTarget arc (hnumeric.well.mem_arcs harc).1
        have hcast : arc.target = (arc.target.toNat : Int) := (Int.toNat_of_nonneg hend.1).symm
        have hsize : arc.target.toNat < (withExtension state.pool label arc used cost).live.size := by
          have hlive : (withExtension state.pool label arc used cost).live.size =
            search.network.numNodes := h.size_live
          have := hend.1
          have := hend.2
          omega
        have hreal : (withExtension state.pool label arc used cost).IsReal := by
          intro other hother
          rw [history_withExtension, List.mem_append, List.mem_singleton] at hother
          rcases hother with hold | rfl
          · exact h.real other hold
          · exact ⟨htotal, hresources⟩
        obtain ⟨pool, inserted, hinsert, hlive⟩ := hreal.insert_ok
          (getElem?_withExtension state.pool label arc used cost) hcast hsize
          search.settings.useDominance
        have hhistory : pool.history = (withExtension state.pool label arc used cost).history := by
          have hkept := LabelPool.history_insert (withExtension state.pool label arc used cost)
            state.pool.numCreated search.settings.useDominance
          rwa [hinsert] at hkept
        have hnode : (withExtension state.pool label arc used cost).nodeAt arc.target =
            .ok arc.target.toNat := by
          rw [hcast, Int.toNat_natCast]
          exact LabelPool.nodeAt_natCast hsize
        have hgrow : search.grow state label arc used cost =
            state.grown pool arc.target.toNat inserted := by
          obtain ⟨known, queue, waiting, extended, visits, stop⟩ := state
          simp only [withExtension] at hnode hinsert
          simp only [PathSearch.grow, hnode, hinsert]
          rfl
        simp only [if_true, Bool.false_eq_true, if_false, hgrow]
        refine ⟨?_, ?_, ?_, by simpa using h.visits_eq⟩
        · rintro ⟨cause, hcause⟩
          rw [State.grown_stop, hstop] at hcause
          cases hcause
        · rw [State.grown_pool, LabelPool.IsReal, hhistory]
          exact hreal
        · rw [State.grown_pool, hlive]
          exact h.size_live
  · rw [extendAlong_of_stop (by simp [hstop])]
    exact h

/-- Following arcs that leave a node keeps a search steady. -/
theorem Steady.extendArcs (hnumeric : search.IsNumeric costs) (h : Steady search visits state)
    {label : Label Int α} (hlabel : label.IsReal) {node : Nat} {arcs : List (Arc Int α × α)}
    (harcs : ∀ entry ∈ arcs, entry ∈ search.arcsFrom costs node) :
    Steady search visits (search.extendArcs label arcs state) := by
  induction arcs generalizing state with
  | nil => exact h
  | cons entry rest ih =>
    obtain ⟨hentry, hrest⟩ := List.forall_mem_cons.mp harcs
    exact ih (h.extendAlong hnumeric hlabel hentry) hrest

/-- Looking at a label of a visit keeps a search steady. -/
theorem Steady.extendLabel (hnumeric : search.IsNumeric costs) (h : Steady search visits state)
    (node id : Nat) :
    Steady search visits (search.extendLabel (search.arcsFrom costs node) state id) := by
  rcases hstop : state.stop with - | stop
  · rw [extendLabel_eq hstop]
    split
    · exact h
    · next label hlabel =>
      split
      · exact h
      · have hbegun : Steady search visits
            { state with extended := state.extended.setIfInBounds id true } :=
          ⟨h.fine, h.real, h.size_live, h.visits_eq⟩
        exact hbegun.extendArcs hnumeric (h.real.label hlabel) fun entry hentry => hentry
  · rw [extendLabel_of_stop (by simp [hstop])]
    exact h

/-- Looking at labels one after the other keeps a search steady. -/
theorem Steady.extendLabels (hnumeric : search.IsNumeric costs) (h : Steady search visits state)
    (node : Nat) (ids : List Nat) :
    Steady search visits (ids.foldl (search.extendLabel (search.arcsFrom costs node)) state) := by
  induction ids generalizing state with
  | nil => exact h
  | cons id rest ih => exact ih (h.extendLabel hnumeric node id)

/-- Closing a visit keeps a search steady. -/
theorem Steady.tidy (h : Steady search visits state) (node : Nat) :
    Steady search visits (tidy state node) := by
  rw [PathSearch.tidy]
  split
  · exact h
  · obtain ⟨pool, count, hsweep, hsize⟩ := h.real.sweep_ok node
    have hhistory := state.pool.history_sweep node
    simp only [hsweep] at hhistory ⊢
    refine ⟨h.fine, ?_, hsize.trans h.size_live, h.visits_eq⟩
    rw [LabelPool.IsReal, hhistory]
    exact h.real

/-- A step of a search that is not finished is one visit, and does not fail. -/
theorem Steady.step (hnumeric : search.IsNumeric costs) (h : Steady search visits state)
    (hfinished : state.isFinished = false) :
    Steady search (visits + 1) (search.step costs state) := by
  simp only [State.isFinished, Bool.or_eq_false_iff] at hfinished
  cases hqueue : state.queue with
  | nil => simp [hqueue] at hfinished
  | cons node rest =>
    simp only [PathSearch.step, hqueue, visit, ← Array.foldl_toList]
    have hpopped : Steady search (visits + 1) { state with
        queue := rest
        waiting := state.waiting.setIfInBounds node false
        visits := state.visits + 1 } :=
      ⟨h.fine, h.real, h.size_live, congrArg (· + 1) h.visits_eq⟩
    have hvisited := hpopped.extendLabels hnumeric node (state.pool.liveAt node).toList
    split
    · exact hvisited.tidy node
    · exact hvisited

/-- A run does not fail, and as long as it is not finished, each of its steps is a visit. -/
theorem Steady.run (hnumeric : search.IsNumeric costs) (fuel : Nat)
    (h : Steady search visits state) :
    ∃ last, Steady search last (search.run costs fuel state) ∧
      ((search.run costs fuel state).isFinished = true ∨ last = visits + fuel) := by
  induction fuel generalizing state visits with
  | zero => exact ⟨visits, h, Or.inr rfl⟩
  | succ fuel ih =>
    rw [PathSearch.run]
    split
    · next hfinished => exact ⟨visits, h, Or.inl hfinished⟩
    · next hfinished =>
      obtain ⟨last, hsteady, hcases⟩ := ih (h.step hnumeric (by simpa using hfinished))
      refine ⟨last, hsteady, hcases.imp_right fun hlast => ?_⟩
      rw [hlast]
      omega

/-- A search starts steady. -/
theorem steady_start (hwell : search.WellFormed) : Steady search 0 search.start := by
  refine ⟨?_, fun label hlabel => ?_, ?_, rfl⟩
  · rintro ⟨cause, hcause⟩
    cases hcause
  · rw [history_start search hwell.source_lt, List.mem_singleton] at hlabel
    subst hlabel
    refine ⟨Numeric.zero, fun amount hamount => ?_⟩
    rw [List.eq_of_mem_replicate hamount]
    exact Numeric.zero
  · simp [start_pool search hwell.source_lt]

omit [Numeric α] in
/-- More visits do not change a run that is finished. -/
theorem run_add {fuel : Nat} (h : (search.run costs fuel state).isFinished = true) (more : Nat) :
    search.run costs (fuel + more) state = search.run costs fuel state := by
  induction fuel generalizing state with
  | zero =>
    cases more with
    | zero => rfl
    | succ more =>
      change state.isFinished = true at h
      rw [Nat.zero_add, PathSearch.run.eq_2, if_pos h]
      rfl
  | succ fuel ih =>
    rw [Nat.succ_add, PathSearch.run, PathSearch.run]
    split
    · rfl
    · next hfinished =>
      rw [PathSearch.run, if_neg hfinished] at h
      exact ih h

omit [Numeric α] in
/-- A run that is finished and has not failed is the end of a search. -/
theorem explore_of_run {duals : List α} {fuel : Nat} (hcosts : search.arcCosts duals = .ok costs)
    (hfine : ¬ (search.run costs fuel search.start).Failed)
    (hfinished : (search.run costs fuel search.start).isFinished = true) :
    search.explore fuel duals = .ok (search.run costs fuel search.start) := by
  simp only [explore, hcosts, bind, Except.bind]
  split
  · next cause hcause => exact absurd ⟨cause, hcause⟩ hfine
  · rw [if_pos hfinished]

/-- A search that never has more labels than a number ends within as many visits, without a fault,
always in the same state. -/
theorem exists_explore_of_numCreated_le (hnumeric : search.IsNumeric costs) {duals : List α}
    (hcosts : search.arcCosts duals = .ok costs) {most : Nat}
    (hmost : ∀ fuel, (search.run costs fuel search.start).pool.numCreated ≤ most) :
    ∃ final, Steady search final.visits final ∧ Reached search costs ⟨.idle, final⟩ ∧
      final.isFinished = true ∧
      ∀ fuel, most ≤ fuel →
        search.run costs fuel search.start = final ∧ search.explore fuel duals = .ok final := by
  obtain ⟨visits, hsteady, hcases⟩ := (steady_start hnumeric.well).run hnumeric most
  have hreached : Reached search costs ⟨.idle, search.run costs most search.start⟩ :=
    moves_run most hsteady.fine
  have hfinished : (search.run costs most search.start).isFinished = true := by
    by_contra hnot
    -- a visit is paid for by a label, and so is each node that waits
    have hpaid := (hreached.worklist hnumeric.well).visits_le
    have hlabels := hmost most
    have hvisits := hsteady.visits_eq
    have hlast := hcases.resolve_left hnot
    have hqueue : (search.run costs most search.start).queue.length ≠ 0 := by
      intro hempty
      rw [List.length_eq_zero_iff] at hempty
      exact hnot (by simp [State.isFinished, hempty])
    dsimp only at hpaid
    omega
  refine ⟨search.run costs most search.start, hsteady.visits_eq ▸ hsteady, hreached, hfinished,
    fun fuel hfuel => ?_⟩
  obtain ⟨extra, rfl⟩ := Nat.exists_eq_add_of_le hfuel
  have hsame := run_add hfinished extra
  refine ⟨hsame, ?_⟩
  rw [explore_of_run hcosts (hsame ▸ hsteady.fine) (hsame ▸ hfinished), hsame]

end PathSearch

end PatternCovering
