import PatternCovering.Proofs.Double.Numbers
import PatternCovering.Proofs.PathSearch.Labels

/-!
# The limit on labels

A search under a limit goes through the same states as one under a greater limit or under none, up
to the point where the first one has no room for a label that the other one creates. From there on
the first search only closes its visit, and the other one only adds labels. So the labels of the
first search are the first labels of the other one, and the limit is met exactly if there is one
label too many; otherwise the limit makes no difference.

A search without a limit need not end. It is looked at after any number of visits.
-/

namespace PatternCovering

namespace PathSearch

variable {α : Type} [Quantity α]

/-- The search with another limit on labels, zero for none. -/
def withLimit (search : PathSearch Int α) (limit : Nat) : PathSearch Int α :=
  { search with settings := { search.settings with maxLabels := Quantity.ofInt limit } }

/-- The search without a limit on labels after some visits. -/
def freely (search : PathSearch Int α) (costs : Array α) (fuel : Nat) : State Int α :=
  (search.withLimit 0).run costs fuel search.start

section History

variable (search : PathSearch Int α) (costs : Array α)

omit [Quantity α] in
/-- Steps that only add labels do so one after the other. -/
theorem isPrefix_foldl {β : Type} {step : State Int α → β → State Int α}
    (h : ∀ state entry, state.pool.history <+: (step state entry).pool.history) (entries : List β)
    (state : State Int α) : state.pool.history <+: (entries.foldl step state).pool.history := by
  induction entries generalizing state with
  | nil => exact List.prefix_refl _
  | cons entry rest ih => exact (h state entry).trans (ih _)

/-- Extending a label along an arc only adds labels. -/
theorem isPrefix_extendAlong (label : Label Int α) (state : State Int α) (arc : Arc Int α)
    (price : α) :
    state.pool.history <+: (search.extendAlong label state arc price).pool.history := by
  rw [extendAlong]
  split
  · exact List.prefix_refl _
  · split
    · exact List.prefix_refl _
    · exact List.prefix_refl _
    · exact List.prefix_refl _
    · rw [history_grow]
      exact List.prefix_append _ _

/-- Looking at a label only adds labels. -/
theorem isPrefix_extendLabel (arcs : List (Arc Int α × α)) (state : State Int α) (id : Nat) :
    state.pool.history <+: (search.extendLabel arcs state id).pool.history := by
  rw [extendLabel]
  split
  · exact List.prefix_refl _
  · split
    · exact List.prefix_refl _
    · next label hlabel =>
      split
      · exact List.prefix_refl _
      · exact isPrefix_foldl (fun state entry => search.isPrefix_extendAlong label state entry.1
          entry.2) arcs { state with extended := state.extended.setIfInBounds id true }

/-- Closing a visit leaves the labels as they were created. -/
theorem history_tidy (state : State Int α) (node : Nat) :
    (tidy state node).pool.history = state.pool.history := by
  have hsweep := state.pool.history_sweep node
  rw [tidy]
  split
  · rfl
  · split <;> simp_all

/-- A visit only adds labels. -/
theorem isPrefix_step (state : State Int α) :
    state.pool.history <+: (search.step costs state).pool.history := by
  rw [step]
  split
  · exact List.prefix_refl _
  · next node rest hqueue =>
    have hvisited := isPrefix_foldl (search.isPrefix_extendLabel (search.arcsFrom costs node))
      (state.pool.liveAt node).toList { state with
        queue := rest
        waiting := state.waiting.setIfInBounds node false
        visits := state.visits + 1 }
    rw [Array.foldl_toList] at hvisited
    simp only [visit]
    split
    · rw [history_tidy]
      exact hvisited
    · exact hvisited

/-- A run only adds labels. -/
theorem isPrefix_run (fuel : Nat) (state : State Int α) :
    state.pool.history <+: (search.run costs fuel state).pool.history := by
  induction fuel generalizing state with
  | zero => exact List.prefix_refl _
  | succ fuel ih =>
    rw [run]
    split
    · exact List.prefix_refl _
    · exact (search.isPrefix_step costs state).trans (ih _)

end History

/-- How a search under a limit stands beside one that may have more labels: both are in the same
state, or the first one was stopped by its limit and the other one has gone on. -/
inductive Abreast (limit : Nat) : State Int α → State Int α → Prop
  | together {state : State Int α} (hroom : state.pool.numCreated ≤ limit) :
    Abreast limit state state
  | behind {stopped other : State Int α} (hstop : stopped.stop = some .limit)
    (hfull : stopped.pool.numCreated = limit)
    (hearlier : stopped.pool.history <+: other.pool.history)
    (hmore : limit < other.pool.numCreated) : Abreast limit stopped other

omit [Quantity α] in
/-- A search that was left behind stays so while the other one adds labels. -/
theorem Abreast.behind_of_isPrefix {limit : Nat} {stopped other after : State Int α}
    (hstop : stopped.stop = some .limit) (hfull : stopped.pool.numCreated = limit)
    (hearlier : stopped.pool.history <+: other.pool.history) (hmore : limit < other.pool.numCreated)
    (hafter : other.pool.history <+: after.pool.history) : Abreast limit stopped after := by
  have hlength := hafter.length_le
  rw [LabelPool.length_history, LabelPool.length_history] at hlength
  exact .behind hstop hfull (hearlier.trans hafter) (hmore.trans_le hlength)

variable [Numeric α] {search : PathSearch Int α} {costs : Array α} {limit more : Nat}

/-- There is no room for another label exactly if there is a limit and it is reached. -/
theorem full_withLimit (search : PathSearch Int α) (limit : Nat) (pool : LabelPool Int α) :
    (search.withLimit limit).full pool = .ok (decide (0 < limit ∧ limit ≤ pool.numCreated)) := by
  have hzero := Numeric.lt?_ofInt (α := α) 0 limit
  have hreached := Numeric.le?_ofInt (α := α) limit pool.numCreated
  simp only [full, withLimit, hzero, hreached, bind, Except.bind]
  by_cases hpos : 0 < limit <;> simp [hpos, pure, Except.pure]

/-- Another limit leaves a search numeric. -/
theorem IsNumeric.withLimit (hwell : search.WellFormed) (hnetwork : search.network.IsNumeric)
    (hcosts : ∀ price ∈ costs, Numeric.IsNumber price) (limit : Nat) :
    (search.withLimit limit).IsNumeric costs where
  well := ⟨hwell.network, hwell.source_eq, hwell.sink_eq, hwell.source_lt, hwell.sink_lt,
    hwell.numItems_nonneg, hwell.item_lt⟩
  network := hnetwork
  costs := hcosts
  full pool := ⟨_, full_withLimit search limit pool⟩

namespace Abreast

variable {first second : State Int α} {visits : Nat}

/-- Extending a label along an arc, a search under a limit stays beside one that may have more
labels. -/
theorem extendAlong (hnumeric : (search.withLimit limit).IsNumeric costs) (hlimit : 0 < limit)
    (hmore : more = 0 ∨ limit ≤ more) {label : Label Int α} (hlabel : label.IsReal) {node : Nat}
    {arc : Arc Int α} {price : α} (harc : (arc, price) ∈ search.arcsFrom costs node)
    (h : Abreast limit first second) :
    Abreast limit ((search.withLimit limit).extendAlong label first arc price)
      ((search.withLimit more).extendAlong label second arc price) := by
  cases h with
  | behind hstop hfull hearlier hbeyond =>
    rw [extendAlong_of_stop (by simp [hstop])]
    exact behind_of_isPrefix hstop hfull hearlier hbeyond (isPrefix_extendAlong _ _ _ _ _)
  | together hroom =>
    rcases hstop : first.stop with - | stop
    · obtain ⟨used, within, cost, hused, hwithin, hcost, -, -⟩ := hnumeric.totals hlabel harc
      have hone : (search.withLimit limit).extension first.pool label arc price = _ :=
        extension_of_totals hused hwithin hcost (full_withLimit search limit first.pool)
      have hother : (search.withLimit more).extension first.pool label arc price = _ :=
        extension_of_totals hused hwithin hcost (full_withLimit search more first.pool)
      have hgrown := congrArg List.length
        (history_grow (search.withLimit more) first label arc used cost)
      rw [LabelPool.length_history, List.length_append, LabelPool.length_history] at hgrown
      simp only [PathSearch.extendAlong, hstop, Option.isSome_none, Bool.false_eq_true, if_false,
        hone, hother]
      cases within with
      | false => exact together hroom
      | true =>
        by_cases hfull : limit ≤ first.pool.numCreated
        · by_cases hsame : 0 < more ∧ more ≤ first.pool.numCreated
          · simp only [if_true, hlimit, hfull, hsame, and_self, decide_true]
            exact together hroom
          · simp only [if_true, hlimit, hfull, hsame, and_self, decide_true, decide_false,
              Bool.false_eq_true, if_false]
            refine behind rfl (Nat.le_antisymm hroom hfull) ?_ ?_
            · rw [history_grow]
              exact List.prefix_append _ _
            · rw [hgrown, List.length_singleton]
              omega
        · have hsame : ¬ (0 < more ∧ more ≤ first.pool.numCreated) := by omega
          simp only [if_true, hfull, hsame, and_false, decide_false, Bool.false_eq_true, if_false]
          refine together ?_
          change ((search.withLimit more).grow first label arc used cost).pool.numCreated ≤ limit
          rw [hgrown, List.length_singleton]
          omega
    · rw [extendAlong_of_stop (by simp [hstop]), extendAlong_of_stop (by simp [hstop])]
      exact together hroom

/-- Following arcs, a search under a limit stays beside one that may have more labels. -/
theorem extendArcs (hnumeric : (search.withLimit limit).IsNumeric costs) (hlimit : 0 < limit)
    (hmore : more = 0 ∨ limit ≤ more) {label : Label Int α} (hlabel : label.IsReal) {node : Nat}
    {arcs : List (Arc Int α × α)} (harcs : ∀ entry ∈ arcs, entry ∈ search.arcsFrom costs node)
    (h : Abreast limit first second) :
    Abreast limit ((search.withLimit limit).extendArcs label arcs first)
      ((search.withLimit more).extendArcs label arcs second) := by
  induction arcs generalizing first second with
  | nil => exact h
  | cons entry rest ih =>
    obtain ⟨hentry, hrest⟩ := List.forall_mem_cons.mp harcs
    exact ih hrest (h.extendAlong hnumeric hlimit hmore hlabel hentry)

/-- Looking at a label, a search under a limit stays beside one that may have more labels. -/
theorem extendLabel (hnumeric : (search.withLimit limit).IsNumeric costs) (hlimit : 0 < limit)
    (hmore : more = 0 ∨ limit ≤ more) (hreal : first.pool.IsReal) (node id : Nat)
    (h : Abreast limit first second) :
    Abreast limit ((search.withLimit limit).extendLabel (search.arcsFrom costs node) first id)
      ((search.withLimit more).extendLabel (search.arcsFrom costs node) second id) := by
  cases h with
  | behind hstop hfull hearlier hbeyond =>
    rw [extendLabel_of_stop (by simp [hstop])]
    exact behind_of_isPrefix hstop hfull hearlier hbeyond (isPrefix_extendLabel _ _ _ _)
  | together hroom =>
    rcases hstop : first.stop with - | stop
    · rw [extendLabel_eq hstop, extendLabel_eq hstop]
      split
      · exact together hroom
      · next label hlabel =>
        split
        · exact together hroom
        · have hbegun : Abreast limit
              { first with extended := first.extended.setIfInBounds id true }
              { first with extended := first.extended.setIfInBounds id true } := together hroom
          exact hbegun.extendArcs hnumeric hlimit hmore (hreal.label hlabel)
            fun entry hentry => hentry
    · rw [extendLabel_of_stop (by simp [hstop]), extendLabel_of_stop (by simp [hstop])]
      exact together hroom

/-- Looking at labels, a search under a limit stays beside one that may have more labels. -/
theorem extendLabels (hnumeric : (search.withLimit limit).IsNumeric costs) (hlimit : 0 < limit)
    (hmore : more = 0 ∨ limit ≤ more) (hsteady : Steady (search.withLimit limit) visits first)
    (node : Nat) (ids : List Nat) (h : Abreast limit first second) :
    Abreast limit
      (ids.foldl ((search.withLimit limit).extendLabel (search.arcsFrom costs node)) first)
      (ids.foldl ((search.withLimit more).extendLabel (search.arcsFrom costs node)) second) := by
  induction ids generalizing first second with
  | nil => exact h
  | cons id rest ih =>
    exact ih (hsteady.extendLabel hnumeric node id)
      (h.extendLabel hnumeric hlimit hmore hsteady.real node id)

/-- Closing a visit, a search under a limit stays beside one that may have more labels. -/
theorem tidy (hreal : first.pool.IsReal) (node : Nat) (h : Abreast limit first second) :
    Abreast limit (tidy first node) (tidy second node) := by
  have hcreated : (PathSearch.tidy first node).pool.numCreated = first.pool.numCreated := by
    rw [← LabelPool.length_history, history_tidy, LabelPool.length_history]
  cases h with
  | together hroom => exact together (hcreated ▸ hroom)
  | behind hstop hfull hearlier hbeyond =>
    have hstill : (PathSearch.tidy first node).stop = some .limit := by
      obtain ⟨pool, count, hsweep, -⟩ := hreal.sweep_ok node
      simp only [PathSearch.tidy, hstop, hsweep]
    refine behind_of_isPrefix hstill (hcreated.trans hfull) ?_ hbeyond ?_
    · rw [history_tidy]
      exact hearlier
    · rw [history_tidy]

/-- Searches that are in the same state stay beside each other in the next visit. -/
theorem step (hnumeric : (search.withLimit limit).IsNumeric costs) (hlimit : 0 < limit)
    (hmore : more = 0 ∨ limit ≤ more) (hsteady : Steady (search.withLimit limit) visits first)
    (hroom : first.pool.numCreated ≤ limit) :
    Abreast limit ((search.withLimit limit).step costs first)
      ((search.withLimit more).step costs first) := by
  cases hqueue : first.queue with
  | nil =>
    simp only [PathSearch.step, hqueue]
    exact together hroom
  | cons node rest =>
    simp only [PathSearch.step, hqueue, visit, ← Array.foldl_toList]
    have hpopped : Steady (search.withLimit limit) (visits + 1) { first with
        queue := rest
        waiting := first.waiting.setIfInBounds node false
        visits := first.visits + 1 } :=
      ⟨hsteady.fine, hsteady.real, hsteady.size_live, congrArg (· + 1) hsteady.visits_eq⟩
    have hvisited := extendLabels hnumeric hlimit hmore hpopped node
      (first.pool.liveAt node).toList (together hroom)
    have hfine := hpopped.extendLabels hnumeric node (first.pool.liveAt node).toList
    change Abreast limit
      (if search.settings.useDominance = true then PathSearch.tidy _ node else _)
      (if search.settings.useDominance = true then PathSearch.tidy _ node else _)
    split
    · exact hvisited.tidy hfine.real node
    · exact hvisited

/-- Given the same number of visits, a search under a limit stays beside one that may have more
labels. -/
theorem run (hnumeric : (search.withLimit limit).IsNumeric costs) (hlimit : 0 < limit)
    (hmore : more = 0 ∨ limit ≤ more) (hsteady : Steady (search.withLimit limit) visits first)
    (fuel : Nat) (h : Abreast limit first second) :
    Abreast limit ((search.withLimit limit).run costs fuel first)
      ((search.withLimit more).run costs fuel second) := by
  induction fuel generalizing first second visits with
  | zero => exact h
  | succ fuel ih =>
    cases h with
    | behind hstop hfull hearlier hbeyond =>
      have hfinished : first.isFinished = true := by simp [State.isFinished, hstop]
      rw [PathSearch.run, if_pos hfinished]
      exact behind_of_isPrefix hstop hfull hearlier hbeyond (isPrefix_run _ _ _ _)
    | together hroom =>
      rw [PathSearch.run, PathSearch.run]
      split
      · exact together hroom
      · next hfinished =>
        exact ih (hsteady.step hnumeric (by simpa using hfinished))
          (step hnumeric hlimit hmore hsteady hroom)

omit [Quantity α] [Numeric α] in
/-- Searches that are beside each other are in the same state, or one was stopped by its limit. -/
theorem eq_or_behind (h : Abreast limit first second) :
    (first = second ∧ first.pool.numCreated ≤ limit) ∨
      (first.stop = some .limit ∧ first.pool.numCreated = limit ∧
        first.pool.history <+: second.pool.history ∧ limit < second.pool.numCreated) := by
  cases h with
  | together hroom => exact Or.inl ⟨rfl, hroom⟩
  | behind hstop hfull hearlier hmore => exact Or.inr ⟨hstop, hfull, hearlier, hmore⟩

omit [Quantity α] [Numeric α] in
/-- A search under a limit has at most as many labels. -/
theorem numCreated_le (h : Abreast limit first second) : first.pool.numCreated ≤ limit := by
  rcases h.eq_or_behind with ⟨-, hroom⟩ | ⟨-, hfull, -⟩
  · exact hroom
  · exact Nat.le_of_eq hfull

omit [Quantity α] [Numeric α] in
/-- The labels of a search under a limit are the first labels of one that may have more. -/
theorem isPrefix (h : Abreast limit first second) :
    first.pool.history <+: second.pool.history := by
  rcases h.eq_or_behind with ⟨heq, -⟩ | ⟨-, -, hearlier, -⟩
  · rw [heq]
  · exact hearlier

end Abreast

/-- What a limit on labels makes of a search, compared with the search without a limit: it ends
with no more labels, which are the first ones of the other search; it was stopped by the limit
exactly if the other search creates one label more, and has as many as the limit says then;
otherwise it ends as the other search does. -/
structure EndsUnder (search : PathSearch Int α) (costs : Array α) (limit : Nat)
    (final : State Int α) : Prop where
  numCreated_le : final.pool.numCreated ≤ limit
  isPrefix : ∀ fuel, limit ≤ fuel →
    final.pool.history <+: (search.freely costs fuel).pool.history
  hitLimit_iff : final.hitLimit = true ↔
    ∃ fuel, limit < (search.freely costs fuel).pool.numCreated
  numCreated_eq : final.hitLimit = true → final.pool.numCreated = limit
  same : final.hitLimit = false → ∀ fuel, limit ≤ fuel → search.freely costs fuel = final

section Ends

variable {duals : List α}

omit [Numeric α] in
/-- A search that ends gives the state of its run. -/
theorem run_of_explore {fuel : Nat} {final : State Int α}
    (hcosts : search.arcCosts duals = .ok costs)
    (h : search.explore fuel duals = .ok final) : search.run costs fuel search.start = final := by
  rw [explore, hcosts] at h
  simp only [bind, Except.bind] at h
  split at h
  · cases h
  · split at h
    · exact Except.ok.inj h
    · cases h

/-- Searches under different limits start and stay beside each other. -/
theorem abreast_run (hwell : search.WellFormed) (hnetwork : search.network.IsNumeric)
    (hprices : ∀ price ∈ costs, Numeric.IsNumber price) (hlimit : 0 < limit)
    (hmore : more = 0 ∨ limit ≤ more) (fuel : Nat) :
    Abreast limit ((search.withLimit limit).run costs fuel search.start)
      ((search.withLimit more).run costs fuel search.start) := by
  have hnumeric := IsNumeric.withLimit hwell hnetwork hprices limit
  have hone : search.start.pool.numCreated = 1 := by
    rw [← LabelPool.length_history, history_start search hwell.source_lt]
    rfl
  refine Abreast.run hnumeric hlimit hmore (steady_start hnumeric.well) fuel ?_
  exact Abreast.together (by change search.start.pool.numCreated ≤ limit; omega)

/-- A search without a limit is not stopped by it. -/
theorem hitLimit_freely {fuel : Nat} (hfine : ¬ (search.freely costs fuel).Failed) :
    (search.freely costs fuel).hitLimit = false := by
  have hreached : Reached (search.withLimit 0) costs ⟨.idle, search.freely costs fuel⟩ :=
    moves_run fuel hfine
  have hstop : (search.freely costs fuel).stop = none :=
    hreached.stop_eq_none fun pool => by rw [full_withLimit]; rfl
  rw [State.hitLimit, hstop]

/-- A search under a limit ends within as many visits as it may have labels, in the way stated. -/
theorem exists_endsUnder (hwell : search.WellFormed) (hnetwork : search.network.IsNumeric)
    (hprices : ∀ price ∈ costs, Numeric.IsNumber price) (hlimit : 0 < limit)
    (hcosts : search.arcCosts duals = .ok costs) :
    ∃ final, EndsUnder search costs limit final ∧
      Steady (search.withLimit limit) final.visits final ∧
      Reached (search.withLimit limit) costs ⟨.idle, final⟩ ∧ final.isFinished = true ∧
      ∀ fuel, limit ≤ fuel → (search.withLimit limit).run costs fuel search.start = final ∧
        (search.withLimit limit).explore fuel duals = .ok final := by
  have hnumeric := IsNumeric.withLimit hwell hnetwork hprices limit
  have hbeside := abreast_run hwell hnetwork hprices hlimit (Or.inl rfl)
  obtain ⟨final, hsteady, hreached, hfinished, hends⟩ :=
    exists_explore_of_numCreated_le hnumeric hcosts fun fuel => (hbeside fuel).numCreated_le
  refine ⟨final, ?_, hsteady, hreached, hfinished, hends⟩
  have hrun : ∀ fuel, limit ≤ fuel → (search.withLimit limit).run costs fuel search.start = final :=
    fun fuel hfuel => (hends fuel hfuel).1
  have hfinal : ∀ fuel, limit ≤ fuel → Abreast limit final (search.freely costs fuel) :=
    fun fuel hfuel => hrun fuel hfuel ▸ hbeside fuel
  -- the search without a limit is not stopped, so that one that was is behind it
  have hbehind : final.hitLimit = true → final.pool.numCreated = limit ∧
      limit < (search.freely costs limit).pool.numCreated := by
    intro hhit
    rcases (hfinal limit (Nat.le_refl _)).eq_or_behind with ⟨heq, -⟩ | ⟨-, hfull, -, hmore⟩
    · have hnot : final.hitLimit = false := heq ▸ hitLimit_freely (heq ▸ hsteady.fine)
      rw [hhit] at hnot
      cases hnot
    · exact ⟨hfull, hmore⟩
  refine ⟨(hfinal limit (Nat.le_refl _)).numCreated_le,
    fun fuel hfuel => (hfinal fuel hfuel).isPrefix, ⟨fun hhit => ⟨limit, (hbehind hhit).2⟩, ?_⟩,
    fun hhit => (hbehind hhit).1, fun hnot fuel hfuel => ?_⟩
  · rintro ⟨fuel, hmore⟩
    rcases (hbeside fuel).eq_or_behind with ⟨heq, hroom⟩ | ⟨hstop, -⟩
    · change limit < ((search.withLimit 0).run costs fuel search.start).pool.numCreated at hmore
      rw [← heq] at hmore
      omega
    · have hstopped : ((search.withLimit limit).run costs fuel search.start).isFinished = true := by
        simp [State.isFinished, hstop]
      have hsame := run_add hstopped limit
      rw [hrun (fuel + limit) (Nat.le_add_left _ _)] at hsame
      rw [hsame, State.hitLimit, hstop]
  · rcases (hfinal fuel hfuel).eq_or_behind with ⟨heq, -⟩ | ⟨hstop, -⟩
    · exact heq.symm
    · simp [State.hitLimit, hstop] at hnot

end Ends

section Prices

variable {duals given : List α} {final : State Int α}

/-- Whether the cost of no label that was created at a node is not-a-number. -/
def NoNaNAt (pool : LabelPool Int α) (node : Nat) : Prop :=
  ∀ label ∈ pool.history, label.node = (node : Int) → Window.isNaN label.cost = false

/-- Real costs are ordered where none of them is not-a-number. -/
theorem NoNaNAt.orderedAt {pool : LabelPool Int α} {node : Nat} (h : NoNaNAt pool node)
    (hreal : pool.IsReal) : OrderedAt pool node :=
  fun label hlabel hat =>
    ⟨(hreal label hlabel).cost, by simpa [Window.isNaN] using h label hlabel hat⟩

/-- What is priced under a limit, from the state in which the search ends: an offer, as long as real
numbers can be multiplied by as many copies as there are labels. It says whether the limit was met;
if it was not, the price is the one without a limit. Among labels at the sink none of whose costs is
not-a-number, the one that is read off as the column is the cheapest of all that were created there.
A search with a greater limit or none that ends has created these labels first, and the label that
it chooses is no more expensive. -/
structure PricesUnder (search : PathSearch Int α) (given duals : List α) (limit : Nat)
    (final : State Int α) : Prop where
  ends : ∀ fuel, limit ≤ fuel → (search.withLimit limit).explore fuel duals = .ok final
  offers : Numeric.IsNumber search.settings.unitCost →
    Numeric.CountsUpTo α final.pool.numCreated → ∃ events offer, ∀ fuel, limit ≤ fuel →
      (search.withLimit limit).priceWithLabels fuel given = (events, .ok (offer, final.pool))
  offer_eq : ∀ fuel offer pool, limit ≤ fuel →
    ((search.withLimit limit).priceWithLabels fuel given).2 = .ok (offer, pool) →
      pool = final.pool ∧ offer.numCreated = final.pool.numCreated ∧
      (offer.status = .iterationLimit ↔ final.hitLimit = true)
  same : final.hitLimit = false → ∀ fuel, limit ≤ fuel →
    (search.withLimit limit).priceWithLabels fuel given =
      (search.withLimit 0).priceWithLabels fuel given
  cheapest : NoNaNAt final.pool search.sink →
    (∃ label ∈ final.pool.history, label.node = (search.sink : Int)) →
    ∃ best, CheapestAtSink search final.pool best ∧ ∀ fuel offer pool, limit ≤ fuel →
      ((search.withLimit limit).priceWithLabels fuel given).2 = .ok (offer, pool) →
        IsReadOff search duals final.pool best offer
  raised : ∀ more fuel larger, more = 0 ∨ limit ≤ more →
    (search.withLimit more).explore fuel duals = .ok larger →
      final.pool.history <+: larger.pool.history ∧ (NoNaNAt larger.pool search.sink →
        ∀ best, search.bestAtSink? final.pool = some best →
          ∃ better, search.bestAtSink? larger.pool = some better ∧
            Quantity.le better.cost best.cost = true)

omit [Numeric α] in
/-- What is read off a label does not depend on the limit. -/
theorem IsReadOff.of_withLimit {pool : LabelPool Int α} {label : Label Int α} {offer : Offer α}
    (h : IsReadOff (search.withLimit limit) duals pool label offer) :
    IsReadOff search duals pool label offer := by
  obtain ⟨hcolumn, id, path, hlabel, hstands, hdescribes⟩ := h
  exact ⟨hcolumn, id, path, hlabel, { hstands with }, { hdescribes with }⟩

omit [Numeric α] in
/-- What is priced when a search has ended and an offer is made. -/
theorem priceWithLabels_of_offerAt {fuel : Nat} {found : Offer α}
    (hread : readDuals search.numItems given = .ok duals)
    (hexplore : search.explore fuel duals = .ok final)
    (hfound : search.offerAt duals final = .ok found) :
    search.priceWithLabels fuel given =
      (search.limitEvents final ++ [.pathsSearched final.pool.numCreated final.pool.numDominated
        final.visits (Quantity.report found.reducedCost)], .ok ({ found with
          numCreated := final.pool.numCreated
          numDominated := final.pool.numDominated
          numVisits := final.visits }, final.pool)) := by
  simp only [priceWithLabels, hread, priceReal, hexplore, hfound]

omit [Numeric α] in
/-- Searches that end in the same state, not stopped by their limits, price the same. -/
theorem priceWithLabels_congr {fuel : Nat} (hread : readDuals search.numItems given = .ok duals)
    (hone : (search.withLimit limit).explore fuel duals = .ok final)
    (hother : (search.withLimit more).explore fuel duals = .ok final)
    (hnot : final.hitLimit = false) :
    (search.withLimit limit).priceWithLabels fuel given =
      (search.withLimit more).priceWithLabels fuel given := by
  have hlimited : ∀ limit, readDuals (search.withLimit limit).numItems given = .ok duals :=
    fun _ => hread
  have hoffer : (search.withLimit limit).offerAt duals final =
      (search.withLimit more).offerAt duals final := rfl
  simp only [priceWithLabels, hlimited, priceReal, hone, hother, hoffer, limitEvents, hnot,
    Bool.false_eq_true, if_false]

/-- With a greater limit or none the same labels come first, and maybe more of them follow. -/
theorem isPrefix_of_raised (hwell : search.WellFormed) (hnetwork : search.network.IsNumeric)
    (hprices : ∀ price ∈ costs, Numeric.IsNumber price)
    (hcosts : (search.withLimit more).arcCosts duals = .ok costs) (hlimit : 0 < limit)
    (hmore : more = 0 ∨ limit ≤ more)
    (hfinal : ∀ fuel, limit ≤ fuel → (search.withLimit limit).run costs fuel search.start = final)
    {fuel : Nat} {larger : State Int α}
    (hlarger : (search.withLimit more).explore fuel duals = .ok larger) :
    final.pool.history <+: larger.pool.history := by
  have hrun : (search.withLimit more).run costs fuel search.start = larger :=
    run_of_explore hcosts hlarger
  obtain ⟨-, -, -, hfinished⟩ := reached_of_explore hlarger
  rw [← hrun] at hfinished
  -- the two searches are compared after a number of visits in which both have ended
  have hbeside := abreast_run hwell hnetwork hprices hlimit hmore (fuel + limit)
  rw [hfinal _ (Nat.le_add_left _ _), run_add hfinished limit, hrun] at hbeside
  exact hbeside.isPrefix

/-- The label that is chosen among more labels at the sink is no more expensive. -/
theorem cost_le_of_raised (hnumeric : (search.withLimit more).IsNumeric costs)
    (hcosts : (search.withLimit more).arcCosts duals = .ok costs)
    (hbooks : Books (search.withLimit limit) costs ⟨.idle, final⟩) {fuel : Nat}
    {larger : State Int α}
    (hlarger : (search.withLimit more).explore fuel duals = .ok larger)
    (hearlier : final.pool.history <+: larger.pool.history)
    (hordered : NoNaNAt larger.pool search.sink) {best : Label Int α}
    (hbest : search.bestAtSink? final.pool = some best) :
    ∃ better, search.bestAtSink? larger.pool = some better ∧
      Quantity.le better.cost best.cost = true := by
  obtain ⟨id, hmem⟩ := mem_of_best? hbest
  obtain ⟨hcreated, hat⟩ := hbooks.created_of_mem hmem
  have hlater : best.unflagged ∈ larger.pool.history := hearlier.subset hcreated
  obtain ⟨same, hsame, hreached, -⟩ := reached_of_explore hlarger
  obtain rfl : costs = same := Except.ok.inj (hcosts.symm.trans hsame)
  obtain ⟨visits, hsteady, -⟩ := (steady_start hnumeric.well).run hnumeric fuel
  rw [run_of_explore hcosts hlarger] at hsteady
  obtain ⟨better, hbetter⟩ := hreached.exists_cheapestAtSink hnumeric.well
    (hordered.orderedAt hsteady.real) ⟨_, hlater, hat⟩
  exact ⟨better, hbetter.chosen, hbetter.cost_le best.unflagged hlater hat⟩

/-- A search under a limit on labels, on a network that was built by the operations: it ends with at
most as many labels, the first ones of the search without a limit; the limit is met exactly if that
search creates one label more, with as many labels as it says, and makes no difference otherwise;
the label at the sink that is offered is the cheapest one so far. -/
theorem price_under_limit {network : Network Int α} (hbuilt : network.Built)
    (hnetwork : network.IsNumeric) {numItems : Option Int} {settings : PricingSettings α}
    (hmake : make network numItems settings = .ok search)
    (hread : readDuals search.numItems given = .ok duals) (hlimit : 1 ≤ limit) :
    ∃ costs final, search.arcCosts duals = .ok costs ∧ EndsUnder search costs limit final ∧
      PricesUnder search given duals limit final := by
  obtain ⟨hwell, rfl, -⟩ := wellFormed_of_make hbuilt.wellFormed hmake
  have hlength := length_of_readDuals hread
  have hreal := Numeric.isReal_of_readDuals hread
  obtain ⟨costs, hcosts, hprices⟩ := hwell.arcCosts_ok hnetwork hlength hreal
  have hnumeric := IsNumeric.withLimit hwell hnetwork hprices
  obtain ⟨final, hends, hsteady, hreached, hfinished, hexplore⟩ :=
    exists_endsUnder hwell hnetwork hprices hlimit hcosts
  have hlimited : readDuals (search.withLimit limit).numItems given = .ok duals := hread
  have hofPrice : ∀ fuel offer pool, limit ≤ fuel →
      ((search.withLimit limit).priceWithLabels fuel given).2 = .ok (offer, pool) →
      ∃ found, (search.withLimit limit).offerAt duals final = .ok found ∧ pool = final.pool ∧
        offer.numCreated = final.pool.numCreated ∧ offer.status = found.status := by
    intro fuel offer pool hfuel hprice
    obtain ⟨state, found, hstate, hfound, hpool, rfl⟩ := of_priceWithLabels hlimited hprice
    obtain rfl : final = state := Except.ok.inj ((hexplore fuel hfuel).2.symm.trans hstate)
    exact ⟨found, hfound, hpool, rfl, rfl⟩
  refine ⟨costs, final, hcosts, hends,
    fun fuel hfuel => (hexplore fuel hfuel).2, ?_, ?_, ?_, ?_, ?_⟩
  · intro hunit hcounts
    obtain ⟨found, hfound⟩ :=
      hreached.exists_offerAt (hnumeric limit) hunit hcounts hlength hreal (Nat.le_refl _)
    exact ⟨_, _, fun fuel hfuel =>
      priceWithLabels_of_offerAt hlimited (hexplore fuel hfuel).2 hfound⟩
  · intro fuel offer pool hfuel hprice
    obtain ⟨found, hfound, hpool, hcreated, hstatus⟩ := hofPrice fuel offer pool hfuel hprice
    exact ⟨hpool, hcreated, hstatus ▸ status_of_offerAt hfound⟩
  · intro hnot fuel hfuel
    have hrun : (search.withLimit 0).run costs fuel search.start = final :=
      hends.same hnot fuel hfuel
    have hfree : (search.withLimit 0).explore fuel duals = .ok final :=
      hrun ▸ explore_of_run hcosts (hrun ▸ hsteady.fine) (hrun ▸ hfinished)
    exact priceWithLabels_congr hread (hexplore fuel hfuel).2 hfree hnot
  · intro hordered hcreated
    obtain ⟨best, hbest⟩ := hreached.exists_cheapestAtSink (hnumeric limit).well
      (hordered.orderedAt hsteady.real) hcreated
    refine ⟨best, ⟨hbest.chosen, hbest.created, hbest.node_eq, hbest.cost_le⟩, ?_⟩
    intro fuel offer pool hfuel hprice
    obtain ⟨-, -, rfl, -⟩ := hofPrice fuel offer pool hfuel hprice
    exact (isReadOff_of_price (hnumeric limit).well hlimited hcosts hprice hbest.chosen).of_withLimit
  · intro more fuel larger hmore hlarger
    have hearlier := isPrefix_of_raised hwell hnetwork hprices hcosts hlimit hmore
      (fun fuel hfuel => (hexplore fuel hfuel).1) hlarger
    exact ⟨hearlier, fun hordered best hbest => cost_le_of_raised (hnumeric more) hcosts
      (hreached.books (hnumeric limit).well) hlarger hearlier hordered hbest⟩

/-- Two arcs in a row with a loop between them that covers an item, in plain data. The loop has a cost
and uses the resources. -/
def oneLoop (windows : List (Window Datum)) (cost : Datum) (used : List Datum) :
    Network Int Datum where
  windows := windows
  names := #[.int 0, .int 1, .int 2]
  source := some 0
  sink := some 2
  arcs := #[⟨0, 0, 1, .float 0.0, windows.map fun _ => .float 0.0, none, .table []⟩,
    ⟨1, 1, 1, cost, used, some 0, .table []⟩,
    ⟨2, 1, 2, .float 0.0, windows.map fun _ => .float 0.0, none, .table []⟩]
  outgoing := #[[0], [1, 2], []]

/-- The network with the loop is built by the operations, if the loop uses an amount of each
resource. -/
theorem built_oneLoop {windows : List (Window Datum)} (cost : Datum) {used : List Datum}
    (hlength : used.length = windows.length) : (oneLoop windows cost used).Built := by
  have hsource : ({ windows } : Network Int Datum).addSource (.int 0) =
    .ok ({ windows, names := #[.int 0], outgoing := #[[]], source := some 0 }, 0) := by cbv
  have hmiddle : ({ windows, names := #[.int 0], outgoing := #[[]], source := some 0 } :
      Network Int Datum).addNode (.int 1) =
    .ok ({ windows, names := #[.int 0, .int 1], outgoing := #[[], []], source := some 0 }, 1) := by
    cbv
  have hsink : ({ windows, names := #[.int 0, .int 1], outgoing := #[[], []], source := some 0 } :
      Network Int Datum).addSink (.int 2) =
    .ok ({ windows, names := #[.int 0, .int 1, .int 2], outgoing := #[[], [], []], source := some 0,
           sink := some 2 }, 2) := by cbv
  have hnodes := (((Network.Built.empty windows).addSource hsource).addNode hmiddle).addSink hsink
  have hfree : (windows.map fun _ => Datum.float 0.0).length = windows.length := List.length_map _
  have hnode : ∀ arcs outgoing (node : Int), 0 ≤ node → node < 3 →
      Network.HasNode ({ windows, names := #[.int 0, .int 1, .int 2], arcs, outgoing,
                         source := some 0, sink := some 2 } : Network Int Datum) node :=
    fun _ _ _ hnonneg hlt => ⟨hnonneg, hlt⟩
  have hnone : ∀ covered ∈ (none : Option Int), 0 ≤ covered := by simp
  have hfirst : ∀ covered ∈ some (0 : Int), 0 ≤ covered := by simp
  have hinto := hnodes.withArc (.float 0.0) (hnode _ _ 0 (by decide) (by decide))
    (hnode _ _ 1 (by decide) (by decide)) hfree hnone
  have haround := hinto.withArc cost (hnode _ _ 1 (by decide) (by decide))
    (hnode _ _ 1 (by decide) (by decide)) hlength hfirst
  exact haround.withArc (.float 0.0) (hnode _ _ 1 (by decide) (by decide))
    (hnode _ _ 2 (by decide) (by decide)) hfree hnone

/-- A loop that costs one and needs no resource. -/
def plainLoop : Network Int Datum := oneLoop [] (.float 1.0) []

/-- The plain loop is built by the operations. -/
theorem built_plainLoop : plainLoop.Built := built_oneLoop (.float 1.0) rfl

/-- The costs of the loop and of the arcs beside it are doubles. -/
theorem isNumeric_plainLoop : plainLoop.IsNumeric := by
  have harcs : ∀ arc ∈ plainLoop.arcs,
      (arc.cost = .float 0.0 ∨ arc.cost = .float 1.0) ∧ arc.consumption = [] := by
    simp [plainLoop, oneLoop]
  refine ⟨fun arc harc => ?_, fun arc harc amount hamount => ?_, fun window hwindow => ?_⟩
  · rcases (harcs arc harc).1 with hcost | hcost
    · exact ⟨.float 0.0, hcost, rfl⟩
    · exact ⟨.float 1.0, hcost, rfl⟩
  · rw [(harcs arc harc).2] at hamount
    cases hamount
  · cases hwindow

/-- Going around the loop is worth it each time, so that the search ends by its limit only. -/
theorem price_under_limit_plainLoop :
    ∃ (search : PathSearch Int Datum) (costs : Array Datum) (final : State Int Datum)
      (events : List Event) (offer : Offer Datum) (best : Label Int Datum),
      plainLoop.Built ∧ plainLoop.IsNumeric ∧
      make plainLoop none ⟨.float 1.0, .int 0, true⟩ = .ok search ∧
      readDuals search.numItems [Datum.float 2.0] = .ok [Datum.float 2.0] ∧
      search.arcCosts [.float 2.0] = .ok costs ∧
      (∀ fuel, 5 ≤ fuel → (search.withLimit 5).priceWithLabels fuel [.float 2.0] =
        (events, .ok (offer, final.pool))) ∧
      offer.status = .iterationLimit ∧ offer.numCreated = 5 ∧
      (∃ fuel, 5 < (search.freely costs fuel).pool.numCreated) ∧
      (∀ fuel, 5 ≤ fuel → final.pool.history <+: (search.freely costs fuel).pool.history) ∧
      CheapestAtSink search final.pool best ∧
      IsReadOff search [.float 2.0] final.pool best offer := by
  generalize hsearch : (⟨plainLoop, 0, 2, 1, ⟨.float 1.0, .int 0, true⟩⟩ : PathSearch Int Datum) =
    search
  have hmake : make plainLoop none ⟨.float 1.0, .int 0, true⟩ = .ok search := hsearch ▸ rfl
  have hread : readDuals search.numItems [Datum.float 2.0] = .ok [Datum.float 2.0] := hsearch ▸ rfl
  obtain ⟨costs, final, hcosts, hends, hprices⟩ :=
    price_under_limit built_plainLoop isNumeric_plainLoop hmake hread (by decide : 1 ≤ 5)
  have hrun : ((search.withLimit 5).explore 5 [.float 2.0]).toOption.map (fun final =>
      (final.hitLimit, decide (∃ label ∈ final.pool.history, label.node = (search.sink : Int)),
        decide (∀ label ∈ final.pool.history, label.node = (search.sink : Int) →
          Window.isNaN label.cost = false))) = some (true, true, true) := by
    rw [← hsearch]
    decide +kernel
  rw [hprices.ends 5 (Nat.le_refl _)] at hrun
  simp only [Except.toOption, Option.map_some, Option.some.injEq, Prod.mk.injEq,
    decide_eq_true_eq] at hrun
  obtain ⟨hhit, hcreated, hordered⟩ := hrun
  have hnumCreated := hends.numCreated_eq hhit
  obtain ⟨best, hbest, hcolumn⟩ := hprices.cheapest hordered hcreated
  obtain ⟨events, offer, hprice⟩ := hprices.offers (hsearch ▸ ⟨.float 1.0, rfl, rfl⟩)
    (Numeric.countsUpTo_datum (by rw [hnumCreated]; decide))
  have hoffer := congrArg Prod.snd (hprice 5 (Nat.le_refl _))
  obtain ⟨-, hcount, hstatus⟩ := hprices.offer_eq 5 offer final.pool (Nat.le_refl _) hoffer
  exact ⟨search, costs, final, events, offer, best, built_plainLoop, isNumeric_plainLoop, hmake,
    hread, hcosts, hprice, hstatus.mpr hhit, hcount.trans hnumCreated, hends.hitLimit_iff.mp hhit,
    hends.isPrefix, hbest, hcolumn 5 offer final.pool (Nat.le_refl _) hoffer⟩

end Prices

end PathSearch

end PatternCovering
