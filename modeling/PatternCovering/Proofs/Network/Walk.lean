import PatternCovering.Proofs.Exact
import PatternCovering.Proofs.Network.WellFormed
import Mathlib.Algebra.Order.BigOperators.Group.List

/-!
# Walks with exact totals

A walk goes along arcs of a network, each of which starts where the one before ended; nodes and arcs
may repeat. A route is a walk from the source to the sink whose consumption stays inside every
window after each of its arcs. Under duals, an arc costs less by the dual of the item it covers. All
totals are sums of rationals, so that routes say what is to be found without any search.
-/

namespace PatternCovering

namespace Arc

/-- The dual of the item that an arc covers, nothing if it covers none. -/
def dualOf (duals : List Rat) (arc : Arc Int Rat) : Rat :=
  match arc.item with
  | none => 0
  | some item => duals.getD item.toNat 0

/-- The cost of an arc less the dual of the item that it covers. -/
def adjustedCost (duals : List Rat) (arc : Arc Int Rat) : Rat := arc.cost - arc.dualOf duals

end Arc

namespace Network

/-- The arcs that lead from one node to another. -/
def IsWalk {α : Type} (network : Network Int α) : Int → List (Arc Int α) → Int → Prop
  | first, [], last => first = last
  | first, arc :: rest, last =>
    arc ∈ network.arcs ∧ arc.source = first ∧ network.IsWalk arc.target rest last

/-- How much of a resource a walk consumes. -/
def used (walk : List (Arc Int Rat)) (resource : Nat) : Rat :=
  (walk.map fun arc => arc.consumption.getD resource 0).sum

/-- Whether the consumption of a walk is inside every window after each of its arcs. -/
def StaysWithin (network : Network Int Rat) (walk : List (Arc Int Rat)) : Prop :=
  ∀ part, part <+: walk → part ≠ [] → ∀ (resource : Nat) (window : Window Rat),
    network.windows[resource]? = some window → window.Admits (used part resource)

/-- The walks from the source to the sink that stay inside the windows. -/
def IsRoute (network : Network Int Rat) (walk : List (Arc Int Rat)) : Prop :=
  ∃ source ∈ network.source, ∃ sink ∈ network.sink,
    network.IsWalk source walk sink ∧ network.StaysWithin walk

/-- The cost of a walk under duals. -/
def adjustedCost (duals : List Rat) (walk : List (Arc Int Rat)) : Rat :=
  (walk.map (Arc.adjustedCost duals)).sum

/-- Walks are put together where one ends and the other starts. -/
theorem isWalk_append {α : Type} {network : Network Int α} {first last : Int}
    {walk rest : List (Arc Int α)} :
    network.IsWalk first (walk ++ rest) last ↔
      ∃ middle, network.IsWalk first walk middle ∧ network.IsWalk middle rest last := by
  induction walk generalizing first with
  | nil => simp [IsWalk]
  | cons arc walk ih =>
    simp only [List.cons_append, IsWalk, ih]
    constructor
    · rintro ⟨harc, hsource, middle, hwalk, hrest⟩
      exact ⟨middle, ⟨harc, hsource, hwalk⟩, hrest⟩
    · rintro ⟨middle, ⟨harc, hsource, hwalk⟩, hrest⟩
      exact ⟨harc, hsource, middle, hwalk, hrest⟩

/-- One arc more. -/
theorem isWalk_concat {α : Type} {network : Network Int α} {first last : Int}
    {walk : List (Arc Int α)} {arc : Arc Int α} :
    network.IsWalk first (walk ++ [arc]) last ↔
      network.IsWalk first walk arc.source ∧ arc ∈ network.arcs ∧ arc.target = last := by
  rw [isWalk_append]
  constructor
  · rintro ⟨middle, hwalk, harc, rfl, hlast⟩
    exact ⟨hwalk, harc, hlast⟩
  · rintro ⟨hwalk, harc, hlast⟩
    exact ⟨arc.source, hwalk, harc, rfl, hlast⟩

/-- A walk goes along arcs of the network. -/
theorem IsWalk.mem_arcs {α : Type} {network : Network Int α} {first last : Int}
    {walk : List (Arc Int α)} (h : network.IsWalk first walk last) {arc : Arc Int α}
    (harc : arc ∈ walk) : arc ∈ network.arcs := by
  induction walk generalizing first with
  | nil => simp at harc
  | cons next rest ih =>
    rcases List.mem_cons.mp harc with rfl | harc
    · exact h.1
    · exact ih h.2.2 harc

/-- A walk ends at one node. -/
theorem IsWalk.unique {α : Type} {network : Network Int α} {first last other : Int}
    {walk : List (Arc Int α)} (h : network.IsWalk first walk last)
    (hother : network.IsWalk first walk other) : last = other := by
  induction walk generalizing first with
  | nil => exact h.symm.trans hother
  | cons arc rest ih => exact ih h.2.2 hother.2.2

/-- A walk that comes through a node is put together there. -/
theorem IsWalk.exists_split {α : Type} {network : Network Int α} {first last place : Int}
    {walk : List (Arc Int α)} (h : network.IsWalk first walk last)
    (hplace : place ∈ first :: walk.map (·.target)) :
    ∃ before after, walk = before ++ after ∧ network.IsWalk first before place ∧
      network.IsWalk place after last := by
  induction walk generalizing first with
  | nil =>
    obtain rfl := List.mem_singleton.mp hplace
    exact ⟨[], [], rfl, rfl, h⟩
  | cons arc rest ih =>
    rcases List.mem_cons.mp hplace with rfl | hplace
    · exact ⟨[], arc :: rest, rfl, rfl, h⟩
    · obtain ⟨before, after, rfl, hbefore, hafter⟩ := ih h.2.2 hplace
      exact ⟨arc :: before, after, rfl, ⟨h.1, h.2.1, hbefore⟩, hafter⟩

/-- A walk that comes through a node twice goes around a cycle. -/
theorem IsWalk.exists_cycle {α : Type} {network : Network Int α} {first last : Int}
    {walk : List (Arc Int α)} (h : network.IsWalk first walk last)
    (hagain : ¬ (first :: walk.map (·.target)).Nodup) :
    ∃ before cycle after node, walk = before ++ cycle ++ after ∧ cycle ≠ [] ∧
      network.IsWalk node cycle node := by
  induction walk generalizing first with
  | nil => exact absurd (List.nodup_singleton first) hagain
  | cons arc rest ih =>
    by_cases hfirst : first ∈ arc.target :: rest.map (·.target)
    · obtain ⟨cycle, after, rfl, hcycle, -⟩ := h.2.2.exists_split hfirst
      exact ⟨[], arc :: cycle, after, first, rfl, List.cons_ne_nil _ _, h.1, h.2.1, hcycle⟩
    · obtain ⟨before, cycle, after, node, rfl, hne, hcycle⟩ :=
        ih h.2.2 fun hnodup => hagain (List.nodup_cons.mpr ⟨hfirst, hnodup⟩)
      exact ⟨arc :: before, cycle, after, node, rfl, hne, hcycle⟩

/-- A walk from a node ends at a node. -/
theorem IsWalk.hasNode {α : Type} {network : Network Int α} (hwell : network.WellFormed)
    {first last : Int} {walk : List (Arc Int α)} (h : network.IsWalk first walk last)
    (hfirst : network.HasNode first) : network.HasNode last := by
  induction walk generalizing first with
  | nil => exact h ▸ hfirst
  | cons arc rest ih => exact ih h.2.2 (hwell.hasTarget arc h.1)

/-- A walk through different nodes has fewer arcs than there are nodes. -/
theorem WellFormed.length_lt_of_nodup {α : Type} {network : Network Int α}
    (hwell : network.WellFormed) {first : Int} (hfirst : network.HasNode first)
    {walk : List (Arc Int α)} (harcs : ∀ arc ∈ walk, arc ∈ network.arcs)
    (h : (first :: walk.map (·.target)).Nodup) : walk.length < network.numNodes := by
  have hnodes : (first :: walk.map (·.target)) ⊆
      (List.range network.numNodes).map (Nat.cast : Nat → Int) := by
    intro node hnode
    have hnode : network.HasNode node := by
      rcases List.mem_cons.mp hnode with rfl | hnode
      · exact hfirst
      · obtain ⟨arc, harc, rfl⟩ := List.mem_map.mp hnode
        exact hwell.hasTarget arc (harcs arc harc)
    obtain ⟨hnonneg, hlt⟩ := hnode
    exact List.mem_map.mpr
      ⟨node.toNat, List.mem_range.mpr (by omega), Int.toNat_of_nonneg hnonneg⟩
  have hlength := h.length_le_of_subset hnodes
  rw [List.length_cons, List.length_map, List.length_map, List.length_range] at hlength
  omega

/-- Walks of a well-formed network along the same positions are the same. -/
theorem WellFormed.eq_of_indices {α : Type} {network : Network Int α} (hwell : network.WellFormed)
    {walk other : List (Arc Int α)} (hwalk : ∀ arc ∈ walk, arc ∈ network.arcs)
    (hother : ∀ arc ∈ other, arc ∈ network.arcs)
    (h : walk.map (·.index) = other.map (·.index)) : walk = other := by
  have hplace : ∀ arc ∈ network.arcs, network.arcs[arc.index.toNat]? = some arc := by
    intro arc harc
    obtain ⟨i, hi⟩ := Array.mem_iff_getElem?.mp harc
    rwa [hwell.index_eq i arc hi, Int.toNat_natCast]
  induction walk generalizing other with
  | nil => exact (List.map_eq_nil_iff.mp h.symm).symm
  | cons arc rest ih =>
    cases other with
    | nil => simp at h
    | cons next others =>
      rw [List.forall_mem_cons] at hwalk hother
      rw [List.map_cons, List.map_cons, List.cons.injEq] at h
      have harc : some arc = some next := by
        rw [← hplace arc hwalk.1, ← hplace next hother.1, h.1]
      rw [Option.some.inj harc, ih hwalk.2 hother.2 h.2]

/-- An empty walk consumes nothing. -/
@[simp]
theorem used_nil (resource : Nat) : used [] resource = 0 := rfl

/-- Walks that are put together consume together. -/
theorem used_append (walk rest : List (Arc Int Rat)) (resource : Nat) :
    used (walk ++ rest) resource = used walk resource + used rest resource := by
  simp [used]

/-- One arc more adds its consumption. -/
theorem used_concat (walk : List (Arc Int Rat)) (arc : Arc Int Rat) (resource : Nat) :
    used (walk ++ [arc]) resource = used walk resource + arc.consumption.getD resource 0 := by
  rw [used_append]
  simp [used]

/-- A walk along arcs that consume a resource consumes it. -/
theorem used_nonneg {walk : List (Arc Int Rat)} {resource : Nat}
    (h : ∀ arc ∈ walk, 0 ≤ arc.consumption.getD resource 0) : 0 ≤ used walk resource := by
  apply List.sum_nonneg
  intro amount hamount
  obtain ⟨arc, harc, rfl⟩ := List.mem_map.mp hamount
  exact h arc harc

/-- An arc of a network without negative consumption consumes nothing or more of each resource. -/
theorem consumption_nonneg {network : Network Int Rat}
    (h : ∀ arc ∈ network.arcs, ∀ amount ∈ arc.consumption, 0 ≤ amount) {arc : Arc Int Rat}
    (harc : arc ∈ network.arcs) (resource : Nat) : 0 ≤ arc.consumption.getD resource 0 := by
  rw [List.getD_eq_getElem?_getD]
  rcases hamount : arc.consumption[resource]? with - | amount
  · exact le_refl 0
  · exact h arc harc amount (List.mem_of_getElem? hamount)

/-- An empty walk costs nothing. -/
@[simp]
theorem adjustedCost_nil (duals : List Rat) : adjustedCost duals [] = 0 := rfl

/-- Walks that are put together cost together. -/
theorem adjustedCost_append (duals : List Rat) (walk rest : List (Arc Int Rat)) :
    adjustedCost duals (walk ++ rest) = adjustedCost duals walk + adjustedCost duals rest := by
  simp [adjustedCost]

/-- One arc more adds its cost. -/
theorem adjustedCost_concat (duals : List Rat) (walk : List (Arc Int Rat)) (arc : Arc Int Rat) :
    adjustedCost duals (walk ++ [arc]) = adjustedCost duals walk + arc.adjustedCost duals := by
  rw [adjustedCost_append]
  simp [adjustedCost]

/-- The adjusted cost of a walk is its cost less the duals of the items that it covers. -/
theorem adjustedCost_eq_sub (duals : List Rat) (walk : List (Arc Int Rat)) :
    adjustedCost duals walk = (walk.map (·.cost)).sum - (walk.map (Arc.dualOf duals)).sum := by
  induction walk with
  | nil => simp
  | cons arc walk ih =>
    simp only [adjustedCost, List.map_cons, List.sum_cons] at ih ⊢
    rw [ih, Arc.adjustedCost]
    ring

/-- An empty walk leaves no window. -/
theorem staysWithin_nil (network : Network Int Rat) : network.StaysWithin [] := by
  intro part hinitial hne
  exact absurd (List.prefix_nil.mp hinitial) hne

/-- One arc more stays inside the windows if the totals after it do. -/
theorem staysWithin_concat {network : Network Int Rat} {walk : List (Arc Int Rat)}
    {arc : Arc Int Rat} :
    network.StaysWithin (walk ++ [arc]) ↔ network.StaysWithin walk ∧
      ∀ (resource : Nat) (window : Window Rat), network.windows[resource]? = some window →
        window.Admits (used (walk ++ [arc]) resource) := by
  constructor
  · intro h
    refine ⟨fun part hinitial hne => h part (hinitial.trans (List.prefix_append _ _)) hne, ?_⟩
    exact h (walk ++ [arc]) (List.prefix_refl _) (by simp)
  · rintro ⟨hwalk, hlast⟩ part hinitial hne
    rcases List.prefix_concat_iff.mp hinitial with rfl | hpart
    · exact hlast
    · exact hwalk part hpart hne

/-- Listed amounts are inside the windows exactly if each of them is admitted by its window. -/
theorem forall₂_admits_iff {windows : List (Window Rat)} {amount : Nat → Rat} :
    List.Forall₂ Window.Admits windows ((List.range windows.length).map amount) ↔
      ∀ (resource : Nat) (window : Window Rat), windows[resource]? = some window →
        window.Admits (amount resource) := by
  rw [List.forall₂_iff_get]
  constructor
  · rintro ⟨-, h⟩ resource window hwindow
    obtain ⟨hlt, rfl⟩ := List.getElem?_eq_some_iff.mp hwindow
    simpa using h resource hlt (by simpa using hlt)
  · intro h
    refine ⟨by simp, fun resource hlt _ => ?_⟩
    simpa using h resource windows[resource] (List.getElem?_eq_getElem hlt)

end Network

end PatternCovering
