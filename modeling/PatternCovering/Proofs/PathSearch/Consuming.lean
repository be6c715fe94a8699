import PatternCovering.Proofs.PathSearch.Dominance
import PatternCovering.Proofs.PathSearch.Limit
import PatternCovering.Proofs.PathSearch.Termination
import Mathlib.Data.Set.Finite.Lattice

/-!
# Searches on networks whose cycles consume

Where a resource has an upper bound, no arc gives it back and every cycle consumes some of it, a walk
that stays inside the windows cannot be long. A walk that has gone along as many arcs as there are
nodes has gone around a cycle, and there are finitely many cycles up to that length, so that each of
them consumes at least some positive amount. The walk gets only so many of these amounts out of the
window.

A search without a limit on labels therefore ends by itself, with or without dominance and under all
duals, also where a cycle pays each time it is gone around. When it ends, no node waits and every live
label was extended.
-/

namespace PatternCovering

namespace Network

variable {network : Network Int Rat} {resource : Nat}

/-- Whether no arc gives a resource back and every cycle consumes some of it. -/
structure ConsumedByCycles (network : Network Int Rat) (resource : Nat) : Prop where
  nonneg : ∀ arc ∈ network.arcs, 0 ≤ arc.consumption.getD resource 0
  pos : ∀ node walk, walk ≠ [] → network.IsWalk node walk node → 0 < used walk resource

/-- A walk gives none of the resource back. -/
theorem ConsumedByCycles.used_nonneg (h : network.ConsumedByCycles resource) {first last : Int}
    {walk : List (Arc Int Rat)} (hwalk : network.IsWalk first walk last) :
    0 ≤ used walk resource :=
  Network.used_nonneg fun arc harc => h.nonneg arc (hwalk.mem_arcs harc)

/-- Cycles up to a length consume at least some positive amount each. -/
theorem ConsumedByCycles.exists_least (h : network.ConsumedByCycles resource) (bound : Nat) :
    ∃ least, 0 < least ∧ ∀ node cycle, cycle ≠ [] → network.IsWalk node cycle node →
      cycle.length ≤ bound → least ≤ used cycle resource := by
  have hfinite : {cycle : List (Arc Int Rat) | cycle ≠ [] ∧ cycle.length ≤ bound ∧
      ∃ node, network.IsWalk node cycle node}.Finite :=
    (PathSearch.finite_arcLists network bound).subset
      fun cycle ⟨_, hlength, _, hcycle⟩ => ⟨hlength, fun _ => hcycle.mem_arcs⟩
  rcases Set.eq_empty_or_nonempty {cycle : List (Arc Int Rat) | cycle ≠ [] ∧
      cycle.length ≤ bound ∧ ∃ node, network.IsWalk node cycle node} with hnone | hsome
  · refine ⟨1, one_pos, fun node cycle hne hcycle hlength => ?_⟩
    exact absurd ⟨hne, hlength, node, hcycle⟩ (Set.eq_empty_iff_forall_notMem.mp hnone cycle)
  · obtain ⟨shortest, ⟨hne, -, node, hcycle⟩, hleast⟩ :=
      Set.exists_min_image _ (used · resource) hfinite hsome
    exact ⟨used shortest resource, h.pos node shortest hne hcycle,
      fun place cycle hne hcycle hlength => hleast cycle ⟨hne, hlength, place, hcycle⟩⟩

/-- A walk consumes the least amount of a cycle each time that it goes along as many arcs as there are
nodes. -/
theorem ConsumedByCycles.mul_le_used (h : network.ConsumedByCycles resource)
    (hwell : network.WellFormed) {least : Rat}
    (hleast : ∀ node cycle, cycle ≠ [] → network.IsWalk node cycle node →
      cycle.length ≤ network.numNodes → least ≤ used cycle resource) {first last : Int}
    (hfirst : network.HasNode first) {walk : List (Arc Int Rat)}
    (hwalk : network.IsWalk first walk last) (rounds : Nat)
    (hlength : rounds * network.numNodes ≤ walk.length) : rounds * least ≤ used walk resource := by
  induction rounds generalizing first walk with
  | zero => simpa using h.used_nonneg hwalk
  | succ rounds ih =>
    rw [Nat.succ_mul] at hlength
    rw [← List.take_append_drop network.numNodes walk] at hwalk ⊢
    obtain ⟨middle, hround, hrest⟩ := isWalk_append.mp hwalk
    have hmore := ih (hround.hasNode hwell hfirst) hrest (by rw [List.length_drop]; omega)
    -- the first arcs are too many to come through different nodes
    obtain ⟨before, cycle, after, node, hsplit, hne, hcycle⟩ := hround.exists_cycle fun hnodup => by
      have hfew := hwell.length_lt_of_nodup hfirst (fun _ => hround.mem_arcs) hnodup
      rw [List.length_take] at hfew
      omega
    rw [hsplit] at hround
    have hshort : cycle.length ≤ network.numNodes := by
      have hcount := congrArg List.length hsplit
      rw [List.length_take, List.length_append, List.length_append] at hcount
      omega
    obtain ⟨second, hinto, hafter⟩ := isWalk_append.mp hround
    obtain ⟨third, hbefore, -⟩ := isWalk_append.mp hinto
    have hround := hleast node cycle hne hcycle hshort
    have hbefore := h.used_nonneg hbefore
    have hafter := h.used_nonneg hafter
    rw [used_append, hsplit, used_append, used_append, Nat.cast_succ, add_mul, one_mul]
    linarith

/-- Where the resource has an upper bound, the walks that stay inside the windows are bounded in
length. -/
theorem ConsumedByCycles.exists_length_le (h : network.ConsumedByCycles resource)
    (hwell : network.WellFormed) {window : Window Rat}
    (hwindow : network.windows[resource]? = some window) {most : Rat} (hmost : window.upper = some most) :
    ∃ bound, ∀ first last walk, network.HasNode first → network.IsWalk first walk last →
      network.StaysWithin walk → walk.length ≤ bound := by
  obtain ⟨least, hpos, hleast⟩ := h.exists_least network.numNodes
  obtain ⟨rounds, hrounds⟩ := exists_nat_gt (most / least)
  refine ⟨rounds * network.numNodes, fun first last walk hfirst hwalk hstays => ?_⟩
  by_contra hlong
  rw [not_le] at hlong
  have hne : walk ≠ [] := by
    rintro rfl
    simp at hlong
  have hwithin : used walk resource ≤ most :=
    (hstays walk (List.prefix_refl walk) hne resource window hwindow).2 most hmost
  have hconsumed := h.mul_le_used hwell hleast hfirst hwalk rounds hlong.le
  rw [div_lt_iff₀ hpos] at hrounds
  linarith

/-- Every cycle consumes a resource that no arc gives back if each arc consumes some of it or leads to
a node of a higher rank. -/
theorem consumedByCycles_of_rank (rank : Int → Nat)
    (h : ∀ arc ∈ network.arcs, 0 ≤ arc.consumption.getD resource 0 ∧
      (0 < arc.consumption.getD resource 0 ∨ rank arc.source < rank arc.target)) :
    network.ConsumedByCycles resource := by
  have hrank : ∀ first last walk, network.IsWalk first walk last → walk ≠ [] →
      0 < used walk resource ∨ rank first < rank last := by
    intro first last walk hwalk hne
    induction walk using List.reverseRecOn generalizing last with
    | nil => exact absurd rfl hne
    | append_singleton walk arc ih =>
      obtain ⟨hpart, harc, rfl⟩ := isWalk_concat.mp hwalk
      obtain ⟨hnonneg, hcases⟩ := h arc harc
      have hused : 0 ≤ used walk resource :=
        Network.used_nonneg fun other hother => (h other (hpart.mem_arcs hother)).1
      rw [used_concat]
      rcases hcases with hpos | hhigher
      · exact Or.inl (by linarith)
      · rcases eq_or_ne walk [] with rfl | hne
        · obtain rfl : first = arc.source := hpart
          exact Or.inr hhigher
        · exact (ih _ hpart hne).imp (fun hpos => by linarith) fun hless => hless.trans hhigher
  exact ⟨fun arc harc => (h arc harc).1, fun node walk hne hwalk =>
    (hrank node node walk hwalk hne).resolve_right (lt_irrefl _)⟩

end Network

namespace PathSearch

variable {search : PathSearch Int Rat} {duals : List Rat}

/-- What it means that a search ends by itself with nothing left to do: given enough visits, it is
always in the same state, in which it was not stopped, no node waits and every live label was
extended, and from which an offer is made. -/
structure EndsWithAllExtended (search : PathSearch Int Rat) (duals : List Rat) (limit : Nat)
    (final : State Int Rat) : Prop where
  ends : ∀ fuel, limit ≤ fuel → search.explore fuel duals = .ok final
  stop_eq : final.stop = none
  queue_eq : final.queue = []
  extended : ∀ node, ∀ id ∈ final.pool.liveAt node, final.extended[id]? = some true
  offers : ∃ offer, ∀ fuel, limit ≤ fuel →
    (search.priceWithLabels fuel duals).2 = .ok (offer, final.pool)

/-- A search without a limit on labels that always ends in the same state has nothing left to do. -/
theorem endsWithAllExtended_of_explore (hwell : search.WellFormed)
    (hlimit : search.settings.maxLabels ≤ 0) (hlength : (duals.length : Int) = search.numItems)
    {limit : Nat} {final : State Int Rat}
    (hends : ∀ fuel, limit ≤ fuel → search.explore fuel duals = .ok final) :
    EndsWithAllExtended search duals limit final := by
  obtain ⟨costs, hcosts, hreached, hfinished⟩ := reached_of_explore (hends limit (Nat.le_refl limit))
  rw [hwell.arcCosts_eq hlength, Except.ok.injEq] at hcosts
  subst hcosts
  have hstop : final.stop = none := hreached.stop_eq_none (full_of_nonpos hlimit)
  have hqueue : final.queue = [] := by simpa [State.isFinished, hstop] using hfinished
  obtain ⟨found, hfound, -⟩ := hreached.offerAt_cases hwell hlength hstop
  refine ⟨hends, hstop, hqueue, fun node id hlive =>
    (hreached.worklist hwell).extended_of_finished hstop hqueue hlive, { found with
      numCreated := final.pool.numCreated
      numDominated := final.pool.numDominated
      numVisits := final.visits }, fun fuel hfuel => ?_⟩
  rw [priceWithLabels_of_offerAt (readDuals_eq_ok hlength) (hends fuel hfuel) hfound]

/-- On a network that was built by the operations, where some resource with an upper bound is given
back by no arc and consumed by every cycle, a search without a limit on labels ends with nothing left
to do under all duals, with or without dominance. How many visits are enough does not depend on the
duals. -/
theorem endsWithAllExtended_of_consumed {network : Network Int Rat} (hbuilt : network.Built)
    {resource : Nat} {window : Window Rat} (hwindow : network.windows[resource]? = some window)
    {most : Rat} (hmost : window.upper = some most) (hconsumed : network.ConsumedByCycles resource)
    {numItems : Option Int} {settings : PricingSettings Rat} (hlimit : settings.maxLabels ≤ 0)
    (hmake : make network numItems settings = .ok search) :
    ∃ limit, ∀ duals : List Rat, (duals.length : Int) = search.numItems →
      ∃ final, EndsWithAllExtended search duals limit final := by
  obtain ⟨hwell, rfl, rfl⟩ := wellFormed_of_make hbuilt.wellFormed hmake
  obtain ⟨bound, hbound⟩ := hconsumed.exists_length_le hwell.network hwindow hmost
  have hsource : search.network.HasNode search.source := by
    have := hwell.source_lt
    exact ⟨Int.natCast_nonneg _, by omega⟩
  refine ⟨(finite_arcLists search.network bound).toFinset.card, fun duals hlength => ?_⟩
  obtain ⟨final, hends⟩ := exists_explore_of_reached hwell hlength fun config h =>
    h.numCreated_le hwell fun path node used cost harrives => by
    obtain ⟨hwalk, hstays, -⟩ := hwell.arrives_iff.mp harrives
    exact hbound _ node path hsource hwalk hstays
  exact ⟨final, endsWithAllExtended_of_explore hwell hlimit hlength hends⟩

/-- A cycle that pays two each time it is gone around and takes one of three units of a resource, on
one of its two arcs only: it is gone around three times, with dominance and without. -/
theorem endsWithAllExtended_payingCycle :
    ∃ (network : Network Int Rat) (window : Window Rat) (there back : Arc Int Rat),
      network.Built ∧ network.windows[0]? = some window ∧ window.upper = some 3 ∧
      network.ConsumedByCycles 0 ∧ network.IsWalk 1 [there, back] 1 ∧
      Network.adjustedCost [2] [there, back] = -2 ∧
      ∀ check, ∃ (search : PathSearch Int Rat) (limit : Nat) (final : State Int Rat)
        (offer : Offer Rat), make network none ⟨1, 0, check⟩ = .ok search ∧
        (([2] : List Rat).length : Int) = search.numItems ∧
        EndsWithAllExtended search [2] limit final ∧
        (search.price 13 [2]).2 = .ok offer ∧ offer.column.counts = [3] := by
  generalize hassembled : Network.assemble [⟨some 0, some 3, .null⟩] 4 0 2
    [(0, 1, 0, [0], none), (1, 3, 0, [0], some 0), (3, 1, 0, [1], none), (1, 2, 0, [0], none)] =
      assembled
  have hnetwork : (assembled.toOption.map fun network =>
      ((network.windows[0]?.bind (·.upper)), network.arcs.all fun arc =>
        0 ≤ arc.consumption.getD 0 0 &&
          (0 < arc.consumption.getD 0 0 || arc.source.toNat < arc.target.toNat))) =
        some (some 3, true) := by
    rw [← hassembled]
    decide +kernel
  have hcycle : (assembled.toOption.bind fun network => network.arcs[1]?.bind fun there =>
      network.arcs[2]?.map fun back => ((there.source, there.target), (back.source, back.target),
        Network.adjustedCost [2] [there, back])) = some ((1, 3), (3, 1), -2) := by
    rw [← hassembled]
    decide +kernel
  have hrun : ∀ check, (assembled.toOption.bind fun network =>
      (make network none ⟨1, 0, check⟩).toOption.bind fun search =>
        (search.price 13 [2]).2.toOption.map fun offer =>
          (search.numItems, offer.column.counts)) = some (1, [3]) := by
    rw [← hassembled]
    decide +kernel
  obtain ⟨network, hbuilt, -⟩ := Option.map_eq_some_iff.mp hnetwork
  rw [toOption_eq_some] at hbuilt
  subst hbuilt
  simp only [Except.toOption, Option.bind_some, Option.map_some, Option.some.injEq, Prod.mk.injEq,
    Array.all_eq_true_iff_forall_mem, Bool.and_eq_true, Bool.or_eq_true, decide_eq_true_eq]
    at hnetwork hcycle hrun
  obtain ⟨hupper, hrank⟩ := hnetwork
  obtain ⟨window, hwindow, hmost⟩ := Option.bind_eq_some_iff.mp hupper
  obtain ⟨there, hthere, hcycle⟩ := Option.bind_eq_some_iff.mp hcycle
  obtain ⟨back, hback, hcycle⟩ := Option.map_eq_some_iff.mp hcycle
  simp only [Prod.mk.injEq] at hcycle
  obtain ⟨⟨hsource, htarget⟩, ⟨hsource', htarget'⟩, hcost⟩ := hcycle
  have hbuilt := Network.built_of_assemble hassembled
  have hconsumed := Network.consumedByCycles_of_rank Int.toNat hrank
  refine ⟨network, window, there, back, hbuilt, hwindow, hmost, hconsumed,
    ⟨Array.mem_of_getElem? hthere, hsource, Array.mem_of_getElem? hback,
      hsource'.trans htarget.symm, htarget'⟩, hcost, fun check => ?_⟩
  obtain ⟨search, hmake, hprice⟩ := Option.bind_eq_some_iff.mp (hrun check)
  obtain ⟨offer, hoffer, hprice⟩ := Option.map_eq_some_iff.mp hprice
  simp only [Prod.mk.injEq] at hprice
  obtain ⟨hitems, hcounts⟩ := hprice
  obtain ⟨limit, hends⟩ :=
    endsWithAllExtended_of_consumed hbuilt hwindow hmost hconsumed (le_refl 0)
      (toOption_eq_some.mp hmake)
  obtain ⟨final, hfinal⟩ := hends [2] hitems.symm
  exact ⟨search, limit, final, offer, toOption_eq_some.mp hmake, hitems.symm, hfinal,
    toOption_eq_some.mp hoffer, hcounts⟩

end PathSearch

end PatternCovering
