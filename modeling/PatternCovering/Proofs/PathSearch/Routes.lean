import PatternCovering.Proofs.Network.Walk
import PatternCovering.Proofs.PathSearch.Coverage
import Mathlib.Data.List.Induction

/-!
# Searches in exact arithmetic

On rationals the paths that arrive are the walks that stay inside the windows, with the sums of
consumption and of adjusted costs as their totals. A label at the sink is read off as the pattern of
its walk, whose reduced cost is the cost of a pattern and the adjusted cost of the walk.
-/

namespace PatternCovering

namespace PathSearch

variable {search : PathSearch Int Rat} {costs : Array Rat} {duals : List Rat}

/-- An item that an arc covers has a dual. -/
theorem WellFormed.entry_eq (hwell : search.WellFormed)
    (hlength : (duals.length : Int) = search.numItems) {arc : Arc Int Rat} {item : Int}
    (harc : arc ∈ search.network.arcs) (hitem : item ∈ arc.item) :
    item.toNat < duals.length ∧ Position.entry duals item = .ok (duals.getD item.toNat 0) := by
  have hnonneg := hwell.network.item_nonneg arc harc item hitem
  have hlt := hwell.item_lt arc harc item hitem
  have hplace : item.toNat < duals.length := by omega
  refine ⟨hplace, ?_⟩
  simp [Position.entry, Position.toInt, entryAt, entryAt?, hnonneg, hplace, bind, Except.bind,
    List.getD_eq_getElem?_getD]

/-- The adjusted costs of all arcs. -/
theorem WellFormed.arcCosts_eq (hwell : search.WellFormed)
    (hlength : (duals.length : Int) = search.numItems) :
    search.arcCosts duals = .ok (search.network.arcs.map (Arc.adjustedCost duals)) := by
  refine mapM_array_eq_ok fun arc harc => ?_
  rcases hitem : arc.item with - | item
  · simp [Arc.reducedCost, Arc.adjustedCost, Arc.dualOf, hitem]
  · have hentry := (hwell.entry_eq hlength harc hitem).2
    simp [Arc.reducedCost, Arc.adjustedCost, Arc.dualOf, hitem, hentry, bind, Except.bind]

/-- The arcs that leave a node are those of the network that start there, each at its adjusted
cost. -/
theorem WellFormed.mem_arcsFrom_iff (hwell : search.WellFormed) {node : Nat} {arc : Arc Int Rat}
    {price : Rat} :
    (arc, price) ∈ search.arcsFrom (search.network.arcs.map (Arc.adjustedCost duals)) node ↔
      arc ∈ search.network.arcs ∧ arc.source = (node : Int) ∧ price = arc.adjustedCost duals := by
  constructor
  · intro h
    obtain ⟨harc, hsource, hentry, hprice⟩ := hwell.mem_arcs h
    rw [Array.getElem?_map, hentry] at hprice
    exact ⟨harc, hsource, (Option.some.inj hprice).symm⟩
  · rintro ⟨harc, hsource, rfl⟩
    obtain ⟨i, hi⟩ := Array.mem_iff_getElem?.mp harc
    refine mem_arcsFrom.mpr ⟨i, (hwell.network.mem_leaving node i).mpr ⟨arc, hi, hsource⟩, hi, ?_⟩
    rw [Array.getElem?_map, hi]
    rfl

/-- An empty walk uses nothing of any resource. -/
theorem range_used_nil (numResources : Nat) :
    (List.range numResources).map (Network.used []) =
      List.replicate numResources (Quantity.zero : Rat) :=
  List.eq_replicate_iff.mpr ⟨by simp, by simp⟩

/-- One arc more adds its consumption to the totals of a walk. -/
theorem WellFormed.zipWith_used (hwell : search.WellFormed) {arc : Arc Int Rat}
    (harc : arc ∈ search.network.arcs) (walk : List (Arc Int Rat)) :
    List.zipWith (· + ·) ((List.range search.network.numResources).map (Network.used walk))
        arc.consumption =
      (List.range search.network.numResources).map (Network.used (walk ++ [arc])) := by
  have hlength := hwell.network.length_consumption arc harc
  apply List.ext_getElem
  · simp [hlength]
  · intro resource hleft hright
    have hlt : resource < arc.consumption.length := by
      rw [hlength]
      simpa using hright
    simp [Network.used_concat, List.getD_eq_getElem?_getD, hlt]

/-- The paths that arrive are the walks from the source that stay inside the windows. -/
theorem WellFormed.arrives_iff (hwell : search.WellFormed) {path : List (Arc Int Rat)} {node : Nat}
    {used : List Rat} {cost : Rat} :
    Arrives search (search.network.arcs.map (Arc.adjustedCost duals)) path node used cost ↔
      search.network.IsWalk search.source path node ∧ search.network.StaysWithin path ∧
        used = (List.range search.network.numResources).map (Network.used path) ∧
        cost = Network.adjustedCost duals path := by
  constructor
  · intro h
    induction h with
    | start =>
      exact ⟨rfl, Network.staysWithin_nil _, (range_used_nil _).symm, rfl⟩
    | @step path node target used more cost price total arc _ harc htarget hused hwithin htotal ih =>
      obtain ⟨hwalk, hstays, rfl, rfl⟩ := ih
      obtain ⟨hmem, hsource, rfl⟩ := hwell.mem_arcsFrom_iff.mp harc
      rw [extendResources_rat, Except.ok.injEq, hwell.zipWith_used hmem] at hused
      subst hused
      rw [Quantity.add?_rat, Except.ok.injEq, ← Network.adjustedCost_concat] at htotal
      subst htotal
      rw [Window.containsAll_iff (by simp [Network.numResources]), Network.numResources,
        Network.forall₂_admits_iff] at hwithin
      exact ⟨Network.isWalk_concat.mpr ⟨hsource ▸ hwalk, hmem, htarget⟩,
        Network.staysWithin_concat.mpr ⟨hstays, hwithin⟩, rfl, rfl⟩
  · rintro ⟨hwalk, hstays, rfl, rfl⟩
    induction path using List.reverseRecOn generalizing node with
    | nil =>
      have hnode : search.source = node := Int.ofNat_inj.mp hwalk
      rw [range_used_nil, ← hnode]
      exact Arrives.start
    | append_singleton path arc ih =>
      obtain ⟨hwalk, harc, htarget⟩ := Network.isWalk_concat.mp hwalk
      obtain ⟨hstays, hwithin⟩ := Network.staysWithin_concat.mp hstays
      have hsource := (hwell.network.hasSource arc harc).1
      have hplace : arc.source = (arc.source.toNat : Int) := (Int.toNat_of_nonneg hsource).symm
      refine Arrives.step (ih (hplace ▸ hwalk) hstays)
        (hwell.mem_arcsFrom_iff.mpr ⟨harc, hplace, rfl⟩) htarget ?_ ?_ ?_
      · rw [extendResources_rat, hwell.zipWith_used harc]
      · rw [Window.containsAll_iff (by simp [Network.numResources]), Network.numResources,
          Network.forall₂_admits_iff]
        exact hwithin
      · rw [Quantity.add?_rat, Network.adjustedCost_concat]

end PathSearch

end PatternCovering
