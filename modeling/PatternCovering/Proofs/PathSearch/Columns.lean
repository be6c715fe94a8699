import PatternCovering.Proofs.Exact
import PatternCovering.Proofs.PathSearch.Paths
import Mathlib.Data.List.Induction

/-!
# The columns that paths are read off as

The column of a path counts, for each item, the arcs that cover it, and adds the costs of the arcs
from left to right to the cost of a pattern. The path is read back from a label, in the end from the
best one at the sink. All of this holds for every kind of quantity; only what a pattern weighs is a
rational.
-/

namespace PatternCovering

namespace PathSearch

variable {α : Type}

/-- How many arcs of a path cover each of some items. -/
def itemCounts (numItems : Nat) (path : List (Arc Int α)) : List Nat :=
  (List.range numItems).map fun (item : Nat) => path.countP fun arc => arc.item = some (item : Int)

/-- The weight of the item that an arc covers, nothing if it covers none. -/
def itemWeight (weights : List Rat) (arc : Arc Int α) : Rat :=
  (arc.item.map fun item => weights.getD item.toNat 0).getD 0

/-- Whether the items that the arcs of a path cover are among the first ones. -/
def ItemsBelow (numItems : Nat) (path : List (Arc Int α)) : Prop :=
  ∀ arc ∈ path, ∀ item ∈ arc.item, 0 ≤ item ∧ item.toNat < numItems

variable {numItems : Nat} {path : List (Arc Int α)} {arc : Arc Int α}

@[simp]
theorem length_itemCounts : (itemCounts numItems path).length = numItems := by
  simp [itemCounts]

/-- No item is covered before the first arc. -/
theorem itemCounts_nil : itemCounts numItems ([] : List (Arc Int α)) = List.replicate numItems 0 := by
  simp [itemCounts, List.map_const']

/-- An arc without an item leaves the counts as they are. -/
theorem itemCounts_concat_none (h : arc.item = none) :
    itemCounts numItems (path ++ [arc]) = itemCounts numItems path := by
  simp [itemCounts, h]

/-- An arc counts once for the item that it covers. -/
theorem itemCounts_concat_some {item : Int} (h : arc.item = some item) (hnonneg : 0 ≤ item) :
    itemCounts numItems (path ++ [arc]) =
      (itemCounts numItems path).modify item.toNat (· + 1) := by
  apply List.ext_getElem?
  intro place
  rw [List.getElem?_modify]
  by_cases hplace : place < numItems
  · have hiff : item = (place : Int) ↔ item.toNat = place := by omega
    by_cases heq : item.toNat = place
    · simp [itemCounts, h, hplace, hiff, heq]
    · simp [itemCounts, h, hplace, hiff, heq]
  · simp [itemCounts, hplace]

/-- Counting along a path continues the counts of what was gone along before. -/
theorem countAlong_itemCounts (rest : List (Arc Int α)) (hitems : ItemsBelow numItems rest) :
    countAlong (itemCounts numItems path) rest = .ok (itemCounts numItems (path ++ rest)) := by
  induction rest generalizing path with
  | nil => simp [countAlong]
  | cons arc rest ih =>
    have hrest : ItemsBelow numItems rest :=
      fun other hother => hitems other (List.mem_cons_of_mem _ hother)
    have happend : path ++ arc :: rest = (path ++ [arc]) ++ rest := by simp
    rw [countAlong, happend]
    rcases hitem : arc.item with - | item
    · change countAlong (itemCounts numItems path) rest = _
      rw [← itemCounts_concat_none hitem, ih hrest]
    · obtain ⟨hnonneg, hlt⟩ := hitems arc List.mem_cons_self item hitem
      have hplace : Position.place (itemCounts numItems path).length item = .ok item.toNat :=
        Position.place_eq_ok hnonneg (by simpa using hlt)
      change Position.place (itemCounts numItems path).length item >>= _ = _
      rw [hplace, ← ih hrest, itemCounts_concat_some hitem hnonneg]
      rfl

/-- The counts along a path weigh as much as the items that its arcs cover. -/
theorem weigh_itemCounts (weights : List Rat) (hitems : ItemsBelow numItems path) :
    weigh weights (itemCounts numItems path) = (path.map (itemWeight weights)).sum := by
  induction path using List.reverseRecOn with
  | nil => simp [itemCounts_nil]
  | append_singleton path arc ih =>
    have hpath : ItemsBelow numItems path :=
      fun other hother => hitems other (List.mem_append_left _ hother)
    rw [List.map_append, List.sum_append, ← ih hpath]
    rcases hitem : arc.item with - | item
    · simp [itemCounts_concat_none hitem, itemWeight, hitem]
    · obtain ⟨hnonneg, hlt⟩ := hitems arc (by simp) item hitem
      rw [itemCounts_concat_some hitem hnonneg, weigh_modify (by simpa using hlt)]
      simp [itemWeight, hitem]

variable {search : PathSearch Int α}

/-- The items that the arcs of a network cover are priced. -/
theorem WellFormed.itemsBelow (hwell : search.WellFormed)
    (harcs : ∀ arc ∈ path, arc ∈ search.network.arcs) : ItemsBelow search.numItems.toNat path := by
  intro arc harc item hitem
  have hnonneg := hwell.network.item_nonneg arc (harcs arc harc) item hitem
  have hlt := hwell.item_lt arc (harcs arc harc) item hitem
  exact ⟨hnonneg, by omega⟩

/-- An arc of the network is found at its position. -/
theorem WellFormed.arcAt_index (hwell : search.WellFormed) (harc : arc ∈ search.network.arcs) :
    search.network.arcAt arc.index = .ok arc := by
  obtain ⟨i, hi⟩ := Array.mem_iff_getElem?.mp harc
  rw [hwell.network.index_eq i arc hi]
  exact Position.element_eq_ok hi

/-- The column that a label is read off as is that of the path that it spells, once the costs along
the path are added up. -/
theorem WellFormed.columnOf_eq [Quantity α] (hwell : search.WellFormed) {costs : Array α}
    {pool : LabelPool Int α} {last : Nat} {label : Label Int α}
    (hlabel : pool.arena[last]? = some label) (hpath : Spells search costs pool.history last path)
    (harcs : ∀ arc ∈ path, arc ∈ search.network.arcs) :
    search.columnOf pool label = do
      let pathCost ← (path.map (·.cost)).foldlM Quantity.add? Quantity.zero
      let cost ← Quantity.add? search.settings.unitCost pathCost
      return { counts := itemCounts search.numItems.toNat path
               cost
               trail := some ⟨path.map fun arc => Position.report arc.index, label.resources⟩ } := by
  have hindices : (path.map fun arc => some arc.index).filterMap id = path.map (·.index) := by
    simp [List.filterMap_map]
  have hmap : (path.map (·.index)).mapM search.network.arcAt = .ok path := by
    rw [List.mapM_map]
    exact (mapM_eq_ok (fun arc => arc)
      fun arc harc => hwell.arcAt_index (harcs arc harc)).trans (by simp)
  have hcounts : countAlong (List.replicate search.numItems.toNat 0) path =
      .ok (itemCounts search.numItems.toNat path) := by
    rw [← itemCounts_nil (α := α)]
    exact countAlong_itemCounts path (hwell.itemsBelow harcs)
  simp only [columnOf, noCounts, Position.toInt, hpath.arcPath_eq hlabel, hindices, hmap, hcounts,
    List.map_map, bind, Except.bind, pure, Except.pure, Function.comp_def]

/-- The label that is kept along some labels is one of them. -/
theorem mem_foldl_better [Quantity α] (first : Nat × Label Int α) (rest : List (Nat × Label Int α)) :
    rest.foldl (fun best label => if better label best then label else best) first ∈
      first :: rest := by
  induction rest generalizing first with
  | nil => simp
  | cons next rest ih =>
    rw [List.foldl_cons]
    rcases List.mem_cons.mp (ih (if better next first then next else first)) with heq | hmem
    · rw [heq]
      split <;> simp
    · exact List.mem_cons_of_mem _ (List.mem_cons_of_mem _ hmem)

/-- The best of some labels is one of them. -/
theorem mem_of_best? [Quantity α] {labels : List (Nat × Label Int α)} {label : Label Int α}
    (h : best? labels = some label) : ∃ id, (id, label) ∈ labels := by
  cases labels with
  | nil => simp [best?] at h
  | cons first rest =>
    simp only [best?, Option.some.injEq] at h
    rw [← h]
    exact ⟨_, mem_foldl_better first rest⟩

/-- The live labels at a node with their identifiers. -/
theorem mem_liveLabels {pool : LabelPool Int α} {node : Nat} {entry : Nat × Label Int α} :
    entry ∈ (pool.liveAt node).toList.filterMap (fun id => pool.arena[id]?.map (id, ·)) ↔
      entry.1 ∈ pool.liveAt node ∧ pool.arena[entry.1]? = some entry.2 := by
  rw [List.mem_filterMap]
  constructor
  · rintro ⟨id, hid, hentry⟩
    obtain ⟨label, hlabel, rfl⟩ := Option.map_eq_some_iff.mp hentry
    exact ⟨Array.mem_toList_iff.mp hid, hlabel⟩
  · rintro ⟨hid, hlabel⟩
    exact ⟨entry.1, Array.mem_toList_iff.mpr hid, by rw [hlabel]; rfl⟩

/-- The best label at the sink is live there. -/
theorem of_bestAtSink? [Quantity α] {pool : LabelPool Int α} {label : Label Int α}
    (h : search.bestAtSink? pool = some label) :
    ∃ id ∈ pool.liveAt search.sink, pool.arena[id]? = some label := by
  obtain ⟨id, hmem⟩ := mem_of_best? h
  obtain ⟨hid, hlabel⟩ := mem_liveLabels.mp hmem
  exact ⟨id, hid, hlabel⟩

/-- A price that is returned with its labels comes from a search that has ended. -/
theorem of_priceWithLabels [Quantity α] {given duals : List α}
    (hread : readDuals search.numItems given = .ok duals) {fuel : Nat} {offer : Offer α}
    {pool : LabelPool Int α}
    (h : (search.priceWithLabels fuel given).2 = .ok (offer, pool)) :
    ∃ final found, search.explore fuel duals = .ok final ∧
      search.offerAt duals final = .ok found ∧ pool = final.pool ∧ offer = { found with
        numCreated := final.pool.numCreated
        numDominated := final.pool.numDominated
        numVisits := final.visits } := by
  simp only [priceWithLabels, hread, priceReal] at h
  rcases hexplore : search.explore fuel duals with fault | final
  · simp [hexplore] at h
  · rcases hoffer : search.offerAt duals final with fault | found
    · simp [hexplore, hoffer] at h
    · simp only [hexplore, hoffer, Except.ok.injEq, Prod.mk.injEq] at h
      exact ⟨final, found, rfl, hoffer, h.2.symm, h.1.symm⟩

/-- What is offered for the best label at the sink is the column of this label, at the reduced cost of
the column. -/
theorem of_offerAt [Quantity α] {duals : List α} {state : State Int α} {offer : Offer α}
    {label : Label Int α} (hbest : search.bestAtSink? state.pool = some label)
    (h : search.offerAt duals state = .ok offer) :
    ∃ column reducedCost, search.columnOf state.pool label = .ok column ∧
      column.reducedCostUnder duals = .ok reducedCost ∧
      offer = Offer.ofColumn column reducedCost
        (if state.hitLimit then .iterationLimit else .optimal) := by
  simp only [offerAt, hbest] at h
  obtain ⟨column, hcolumn, h⟩ := bind_eq_ok.mp h
  obtain ⟨reducedCost, hreduced, h⟩ := bind_eq_ok.mp h
  exact ⟨column, reducedCost, hcolumn, hreduced, (Except.ok.inj h).symm⟩

/-- An offer says whether the limit on labels stopped its search. -/
theorem status_of_offerAt [Quantity α] {duals : List α} {state : State Int α} {found : Offer α}
    (h : search.offerAt duals state = .ok found) :
    found.status = .iterationLimit ↔ state.hitLimit = true := by
  simp only [offerAt] at h
  split at h
  · obtain ⟨zeros, -, h⟩ := bind_eq_ok.mp h
    rw [← Except.ok.inj h]
    cases state.hitLimit <;> simp [Offer.nothing, Offer.ofColumn]
  · obtain ⟨column, -, h⟩ := bind_eq_ok.mp h
    obtain ⟨reducedCost, -, h⟩ := bind_eq_ok.mp h
    rw [← Except.ok.inj h]
    cases state.hitLimit <;> simp [Offer.ofColumn]

/-- A search that has ended was not stopped, unless the limit on labels did it. -/
theorem stop_of_explore [Quantity α] {duals : List α} {fuel : Nat} {final : State Int α}
    (h : search.explore fuel duals = .ok final) (hlimit : final.hitLimit = false) :
    final.stop = none := by
  obtain ⟨costs, -, h⟩ := bind_eq_ok.mp h
  dsimp only at h
  split at h
  · cases h
  · next hfault =>
    split at h
    · obtain rfl := Except.ok.inj h
      rcases hstop : (search.run costs fuel search.start).stop with - | - | cause
      · rfl
      · simp [State.hitLimit, hstop] at hlimit
      · exact absurd hstop (hfault cause)
    · cases h

end PathSearch

end PatternCovering
