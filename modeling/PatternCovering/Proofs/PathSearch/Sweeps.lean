import PatternCovering.Proofs.PathSearch.Limit

/-!
# Searches without sweeps

A visit ends with a sweep of its node, which is quadratic in the number of live labels there. Labels
are checked when they are inserted, so that the live labels at a node never dominate one another,
not even in the middle of a visit or where the limit on labels breaks one off. The sweep therefore
finds nothing, and the search that leaves it out goes through the same states, with the same labels
in the same order, and makes the same offer. Nothing is assumed about costs and resources.
-/

namespace PatternCovering

namespace PathSearch

section Definitions

variable {ι α : Type} [Position ι] [Quantity α]

/-- The state when a node has been taken off the queue, with the nodes behind it still waiting. -/
def State.popped (state : State ι α) (node : Nat) (rest : List Nat) : State ι α :=
  { state with
    queue := rest
    waiting := state.waiting.setIfInBounds node false
    visits := state.visits + 1 }

/-- Visits a node without a sweep at the end: extends the labels that were live at it when the visit
began. -/
def visitUnswept (search : PathSearch ι α) (arcCosts : Array α) (state : State ι α) (node : Nat) :
    State ι α :=
  (state.pool.liveAt node).foldl (search.extendLabel (search.arcsFrom arcCosts node)) state

/-- Takes the first node off the queue and visits it without a sweep. -/
def stepUnswept (search : PathSearch ι α) (arcCosts : Array α) (state : State ι α) : State ι α :=
  match state.queue with
  | [] => state
  | node :: rest => search.visitUnswept arcCosts (state.popped node rest) node

/-- Takes steps without sweeps until the search is finished, at most `fuel` of them. -/
def runUnswept (search : PathSearch ι α) (arcCosts : Array α) :
    (fuel : Nat) → State ι α → State ι α
  | 0, state => state
  | fuel + 1, state =>
    if state.isFinished then state
    else search.runUnswept arcCosts fuel (search.stepUnswept arcCosts state)

/-- The state at the end of the search without sweeps. -/
def exploreUnswept (search : PathSearch ι α) (fuel : Nat) (duals : List α) :
    Except Fault (State ι α) := do
  let costs ← search.arcCosts duals
  let final := search.runUnswept costs fuel search.start
  match final.stop with
  | some (.fault cause) => .error cause
  | _ => if final.isFinished then .ok final else .error .searchUnfinished

/-- The offer of the search without sweeps for real duals. -/
def priceRealUnswept (search : PathSearch ι α) (fuel : Nat) (duals : List α) :
    List Event × Except Fault (Offer α × LabelPool ι α) :=
  match search.exploreUnswept fuel duals with
  | .error fault => ([], .error fault)
  | .ok final =>
    match search.offerAt duals final with
    | .error fault => (search.limitEvents final, .error fault)
    | .ok offer =>
      let done := Event.pathsSearched final.pool.numCreated final.pool.numDominated final.visits
        (Quantity.report offer.reducedCost)
      (search.limitEvents final ++ [done],
        .ok ({ offer with
          numCreated := final.pool.numCreated
          numDominated := final.pool.numDominated
          numVisits := final.visits }, final.pool))

/-- The offer of the search without sweeps, with what is reported and the labels of the search. -/
def priceUnswept (search : PathSearch ι α) (fuel : Nat) (duals : List α) :
    List Event × Except Fault (Offer α × LabelPool ι α) :=
  match readDuals search.numItems duals with
  | .error fault => ([], .error fault)
  | .ok duals => search.priceRealUnswept fuel duals

end Definitions

variable {α : Type} [Quantity α] {search : PathSearch Int α} {costs : Array α}
  {state : State Int α} {node : Nat}

/-- A step is a visit without a sweep and then, with dominance, the sweep. -/
theorem step_eq_tidy {rest : List Nat} (hqueue : state.queue = node :: rest) :
    search.step costs state =
      if search.settings.useDominance then
        tidy (search.visitUnswept costs (state.popped node rest) node) node
      else search.visitUnswept costs (state.popped node rest) node := by
  rw [step, hqueue]
  rfl

/-- A step without a sweep visits the first node of the queue. -/
theorem stepUnswept_eq {rest : List Nat} (hqueue : state.queue = node :: rest) :
    search.stepUnswept costs state = search.visitUnswept costs (state.popped node rest) node := by
  rw [stepUnswept, hqueue]

/-- A visit that has not failed comes to a point of the search before its sweep. -/
theorem reached_visitUnswept {rest : List Nat} (h : Reached search costs ⟨.idle, state⟩)
    (hstop : state.stop = none) (hqueue : state.queue = node :: rest)
    (hfine : ¬ (search.visitUnswept costs (state.popped node rest) node).Failed) :
    Reached search costs
      ⟨.visiting node [], search.visitUnswept costs (state.popped node rest) node⟩ := by
  have hpopped : Reached search costs
      ⟨.visiting node (state.pool.liveAt node).toList, state.popped node rest⟩ :=
    h.tail (Move.pop hstop hqueue)
  rw [visitUnswept, ← Array.foldl_toList] at hfine ⊢
  exact hpopped.trans (moves_extendLabels _ hstop hfine)

/-- The sweep at the end of a visit takes nothing out. -/
theorem sweep_visitUnswept (hwell : search.WellFormed)
    (hcheck : search.settings.useDominance = true) {rest : List Nat}
    (h : Reached search costs ⟨.idle, state⟩) (hstop : state.stop = none)
    (hqueue : state.queue = node :: rest)
    (hfine : ¬ (search.visitUnswept costs (state.popped node rest) node).Failed) :
    (search.visitUnswept costs (state.popped node rest) node).pool.sweep node =
      ((search.visitUnswept costs (state.popped node rest) node).pool, .ok 0) :=
  ((reached_visitUnswept h hstop hqueue hfine).books hwell).sweep_eq hcheck node

/-- Closing a visit changes nothing where the sweep takes nothing out. -/
theorem tidy_eq_self (h : ¬ state.Failed → state.pool.sweep node = (state.pool, .ok 0)) :
    tidy state node = state := by
  rw [tidy]
  split
  · rfl
  · next hfault =>
    have hsound : ¬ state.Failed := by
      rintro ⟨cause, hcause⟩
      exact hfault cause hcause
    rw [h hsound]

/-- A step is the same without its sweep. -/
theorem stepUnswept_eq_step (hwell : search.WellFormed) (h : Reached search costs ⟨.idle, state⟩)
    (hfinished : state.isFinished = false) :
    search.stepUnswept costs state = search.step costs state := by
  simp only [State.isFinished, Bool.or_eq_false_iff, Option.isSome_eq_false_iff,
    Option.isNone_iff_eq_none] at hfinished
  obtain ⟨-, hstop⟩ := hfinished
  rcases hqueue : state.queue with - | ⟨node, rest⟩
  · rw [stepUnswept, step, hqueue]
  · rw [stepUnswept_eq hqueue, step_eq_tidy hqueue]
    split
    · next hcheck => exact (tidy_eq_self (sweep_visitUnswept hwell hcheck h hstop hqueue)).symm
    · rfl

/-- A run is the same without its sweeps. -/
theorem runUnswept_eq_run (hwell : search.WellFormed) (fuel : Nat)
    (h : state.Failed ∨ Reached search costs ⟨.idle, state⟩) :
    search.runUnswept costs fuel state = search.run costs fuel state := by
  induction fuel generalizing state with
  | zero => rfl
  | succ fuel ih =>
    rw [runUnswept, run]
    split
    · rfl
    · next hfinished =>
      rcases h with ⟨cause, hcause⟩ | h
      · simp [State.isFinished, hcause] at hfinished
      · have hopen : state.isFinished = false := by simpa using hfinished
        rw [stepUnswept_eq_step hwell h hopen]
        apply ih
        by_cases hfailed : (search.step costs state).Failed
        · exact Or.inl hfailed
        · exact Or.inr (h.trans (moves_step hopen hfailed))

/-- A search is the same without its sweeps. -/
theorem exploreUnswept_eq (hwell : search.WellFormed) (fuel : Nat) (duals : List α) :
    search.exploreUnswept fuel duals = search.explore fuel duals := by
  have hrun (costs : Array α) :
      search.runUnswept costs fuel search.start = search.run costs fuel search.start :=
    runUnswept_eq_run hwell fuel (Or.inr Relation.ReflTransGen.refl)
  simp only [exploreUnswept, hrun]
  rfl

/-- An offer is the same without sweeps. -/
theorem priceUnswept_eq (hwell : search.WellFormed) (fuel : Nat) (given : List α) :
    search.priceUnswept fuel given = search.priceWithLabels fuel given := by
  simp only [priceUnswept, priceRealUnswept, exploreUnswept_eq hwell]
  rfl

/-- On a network that was built by the operations, for any costs, any limit and any duals: each
sweep that a search with dominance makes takes nothing out and leaves the pool as it is. So the
search that never sweeps is in the same state after any number of visits, with the same labels, the
same live labels in the same order and the same counts, and it reports and offers the same. -/
theorem sweeps_take_nothing {network : Network Int α} (hbuilt : network.Built)
    {numItems : Option Int} {settings : PricingSettings α}
    (hmake : make network numItems settings = .ok search)
    (hcheck : settings.useDominance = true) :
    (∀ costs fuel state node rest, search.run costs fuel search.start = state →
      state.stop = none → state.queue = node :: rest →
      ¬ (search.visitUnswept costs (state.popped node rest) node).Failed →
      search.step costs state =
        tidy (search.visitUnswept costs (state.popped node rest) node) node ∧
      (search.visitUnswept costs (state.popped node rest) node).pool.sweep node =
        ((search.visitUnswept costs (state.popped node rest) node).pool, .ok 0)) ∧
    (∀ costs fuel,
      search.runUnswept costs fuel search.start = search.run costs fuel search.start) ∧
    ∀ fuel given, search.priceUnswept fuel given = search.priceWithLabels fuel given := by
  obtain ⟨hwell, rfl, rfl⟩ := wellFormed_of_make hbuilt.wellFormed hmake
  refine ⟨?_, fun costs fuel => runUnswept_eq_run hwell fuel (Or.inr Relation.ReflTransGen.refl),
    priceUnswept_eq hwell⟩
  rintro costs fuel state node rest rfl hstop hqueue hfine
  have hreached : Reached search costs ⟨.idle, search.run costs fuel search.start⟩ := by
    refine moves_run fuel ?_
    rintro ⟨cause, hcause⟩
    rw [hstop] at hcause
    cases hcause
  exact ⟨by rw [step_eq_tidy hqueue, if_pos hcheck],
    sweep_visitUnswept hwell hcheck hreached hstop hqueue hfine⟩

/-- Around a loop that is worth it each time, labels at the node of the visit are taken out by their
own extensions until the limit breaks a visit off; the sweeps take out none. -/
theorem sweeps_take_nothing_plainLoop :
    ∃ (search : PathSearch Int Datum) (costs : Array Datum),
      plainLoop.Built ∧ make plainLoop none ⟨.float 1.0, .int 5, true⟩ = .ok search ∧
      search.arcCosts [.float 2.0] = .ok costs ∧
      (search.run costs 5 search.start).hitLimit = true ∧
      (search.run costs 5 search.start).pool.numDominated = 2 ∧
      search.runUnswept costs 5 search.start = search.run costs 5 search.start ∧
      search.priceUnswept 5 [.float 2.0] = search.priceWithLabels 5 [.float 2.0] := by
  generalize hsearch : (⟨plainLoop, 0, 2, 1, ⟨.float 1.0, .int 5, true⟩⟩ : PathSearch Int Datum) =
    search
  have hmake : make plainLoop none ⟨.float 1.0, .int 5, true⟩ = .ok search := hsearch ▸ rfl
  have hrun : (search.arcCosts [.float 2.0]).toOption.map (fun costs =>
      ((search.run costs 5 search.start).hitLimit,
        (search.run costs 5 search.start).pool.numDominated)) = some (true, 2) := by
    rw [← hsearch]
    decide +kernel
  obtain ⟨costs, hcosts, hrun⟩ := Option.map_eq_some_iff.mp hrun
  simp only [Prod.mk.injEq] at hrun
  obtain ⟨-, hruns, hprices⟩ := sweeps_take_nothing built_plainLoop hmake rfl
  exact ⟨search, costs, built_plainLoop, hmake, toOption_eq_some.mp hcosts, hrun.1, hrun.2,
    hruns costs 5, hprices 5 _⟩

end PathSearch

end PatternCovering
