import PatternCovering.Proofs.Network.Walk
import PatternCovering.Proofs.PathSearch.Arena
import PatternCovering.Proofs.PathSearch.Columns
import PatternCovering.Proofs.PathSearch.Dominance

/-!
# Labels and their paths

A label holds its path only by the label that it extends. At whatever point a search is looked at,
and whatever became of a label since it was created, the arcs read back from it are a walk of the
network from the source to its node, and its totals are those of the walk, taken from left to right.
The offer that is made for the best label at the sink describes the same walk: what it covers, what
it costs and which arcs it takes. In exact arithmetic its reduced cost is the cost of a pattern and
the cost of the label.

The totals are those of the operations of a quantity, with its rounding and its faults. Only the
reduced cost is computed along another way than the cost of the label, so that only there exactness
is asked for.
-/

namespace PatternCovering

variable {α : Type} [Quantity α]

/-- Whether quantities are added, subtracted and multiplied like the rationals that they stand
for. -/
structure Quantity.IsExact (value : α → Rat) : Prop where
  zero : value Quantity.zero = 0
  ofInt : ∀ n, value (Quantity.ofInt n) = n
  add : ∀ a b c, Quantity.add? a b = .ok c → value c = value a + value b
  sub : ∀ a b c, Quantity.sub? a b = .ok c → value c = value a - value b
  mul : ∀ a b c, Quantity.mul? a b = .ok c → value c = value a * value b

/-- Rationals stand for themselves. -/
theorem Quantity.isExact_rat : Quantity.IsExact (fun amount : Rat => amount) where
  zero := rfl
  ofInt _ := rfl
  add _ _ _ h := (Except.ok.inj h).symm
  sub _ _ _ h := (Except.ok.inj h).symm
  mul _ _ _ h := (Except.ok.inj h).symm

namespace PathSearch

variable {search : PathSearch Int α} {costs : Array α} {duals : List α}

/-- The resources that are used along a path, from left to right. -/
def usedAlong (search : PathSearch Int α) (path : List (Arc Int α)) : Except Fault (List α) :=
  path.foldlM (fun used arc => extendResources used arc.consumption)
    (List.replicate search.network.numResources Quantity.zero)

/-- The cost of a path less the duals of the items that its arcs cover, from left to right. -/
def adjustedAlong (duals : List α) (path : List (Arc Int α)) : Except Fault α :=
  path.foldlM (fun total arc => do
    Quantity.add? total (← arc.reducedCost (Position.entry duals))) Quantity.zero

/-- The cost of a path, from left to right. -/
def costAlong (path : List (Arc Int α)) : Except Fault α :=
  (path.map (·.cost)).foldlM Quantity.add? Quantity.zero

/-- What it means that the label under an identifier stands for a path. -/
structure StandsFor (search : PathSearch Int α) (duals : List α) (pool : LabelPool Int α) (id : Nat)
    (label : Label Int α) (path : List (Arc Int α)) : Prop where
  id_eq : label.id = (id : Int)
  predecessor_lt : ∀ previous ∈ label.predecessor, 0 ≤ previous ∧ previous < label.id
  arcPath_eq : pool.arcPath label = .ok (path.map fun arc => some arc.index)
  nodePath_eq : pool.nodePath label = .ok ((search.source : Int) :: path.map (·.target))
  isWalk : search.network.IsWalk search.source path label.node
  usedAlong_eq : search.usedAlong path = .ok label.resources
  adjustedAlong_eq : adjustedAlong duals path = .ok label.cost
  length_resources : label.resources.length = search.network.windows.length
  within : id ≠ 0 → Window.containsAll search.network.windows label.resources = .ok true

/-- What it means that an offer describes the path that a label stands for. -/
structure Describes (search : PathSearch Int α) (path : List (Arc Int α)) (label : Label Int α)
    (offer : Offer α) : Prop where
  length_counts : (offer.column.counts.length : Int) = search.numItems
  counts_eq : ∀ item : Nat, item < offer.column.counts.length →
    offer.column.counts[item]? = some (path.countP fun arc => arc.item = some (item : Int))
  cost_eq : ∃ pathCost, costAlong path = .ok pathCost ∧
    Quantity.add? search.settings.unitCost pathCost = .ok offer.column.cost
  trail_eq : offer.column.trail =
    some ⟨path.map fun arc => Position.report arc.index, label.resources⟩
  reducedCost_eq : ∀ value : α → Rat, Quantity.IsExact value →
    value offer.reducedCost = value search.settings.unitCost + value label.cost

/-- What it means that an offer is read off a label: its column is that of the label, at the reduced
cost of this column, and it describes the path that the label stands for. -/
structure IsReadOff (search : PathSearch Int α) (duals : List α) (pool : LabelPool Int α)
    (label : Label Int α) (offer : Offer α) : Prop where
  column_eq : ∃ column, search.columnOf pool label = .ok column ∧
    column.reducedCostUnder duals = .ok offer.reducedCost ∧
    offer.column = { column with reducedCost := some offer.reducedCost }
  describes : ∃ (id : Nat) (path : List (Arc Int α)), pool.arena[id]? = some label ∧
    StandsFor search duals pool id label path ∧ Describes search path label offer

section Totals

/-- One arc more extends what is used along a path. -/
theorem usedAlong_concat (search : PathSearch Int α) (path : List (Arc Int α)) (arc : Arc Int α) :
    search.usedAlong (path ++ [arc]) =
      search.usedAlong path >>= fun used => extendResources used arc.consumption := by
  simp [usedAlong, List.foldlM_append]

/-- Extended resources are as many as the arc consumes, if as many were used before. -/
theorem length_of_extendResources {used consumption more : List α}
    (h : extendResources used consumption = .ok more) (hlength : used.length = consumption.length) :
    more.length = used.length := by
  induction used generalizing consumption more with
  | nil => simpa [extendResources] using (Except.ok.inj h).symm
  | cons value values ih =>
    cases consumption with
    | nil => simp at hlength
    | cons first rest =>
      obtain ⟨sum, -, h⟩ := bind_eq_ok.mp h
      obtain ⟨sums, hsums, h⟩ := bind_eq_ok.mp h
      rw [← Except.ok.inj h, List.length_cons, ih hsums (by simpa using hlength), List.length_cons]

/-- Every arc has an adjusted cost at its position. -/
theorem exists_of_arcCosts (hcosts : search.arcCosts duals = .ok costs) {i : Nat}
    {arc : Arc Int α} (harc : search.network.arcs[i]? = some arc) :
    ∃ price, costs[i]? = some price ∧ arc.reducedCost (Position.entry duals) = .ok price := by
  rw [arcCosts, Array.mapM_eq_mapM_toList] at hcosts
  obtain ⟨results, hresults, rfl⟩ := map_eq_ok.mp hcosts
  obtain ⟨price, hprice, heq⟩ := getElem?_of_mapM_eq_ok hresults
    (by rwa [Array.getElem?_toList] : search.network.arcs.toList[i]? = some arc)
  exact ⟨price, by rwa [List.getElem?_toArray], heq⟩

/-- The adjusted cost of an arc is the one at its position. -/
theorem reducedCost_of_arcCosts (hcosts : search.arcCosts duals = .ok costs) {i : Nat}
    {arc : Arc Int α} {price : α} (harc : search.network.arcs[i]? = some arc)
    (hprice : costs[i]? = some price) : arc.reducedCost (Position.entry duals) = .ok price := by
  obtain ⟨known, hknown, heq⟩ := exists_of_arcCosts hcosts harc
  rw [heq, Option.some.inj (hknown.symm.trans hprice)]

namespace Arrives

variable {path : List (Arc Int α)} {node : Nat} {used : List α} {cost : α}

/-- A path that arrives is a walk of the network. -/
theorem isWalk (h : Arrives search costs path node used cost) (hwell : search.WellFormed) :
    search.network.IsWalk search.source path node := by
  induction h with
  | start => rfl
  | step _ harc htarget _ _ _ ih =>
    obtain ⟨hmem, hsource, -⟩ := hwell.mem_arcs harc
    exact Network.isWalk_concat.mpr ⟨hsource ▸ ih, hmem, htarget⟩

/-- A path arrives with the resources that are used along it. -/
theorem usedAlong_eq (h : Arrives search costs path node used cost) :
    search.usedAlong path = .ok used := by
  induction h with
  | start => rfl
  | step _ _ _ hused _ _ ih =>
    rw [usedAlong_concat, ih]
    exact hused

/-- A path arrives with the cost along it. -/
theorem adjustedAlong_eq (h : Arrives search costs path node used cost)
    (hcosts : search.arcCosts duals = .ok costs) : adjustedAlong duals path = .ok cost := by
  induction h with
  | start => rfl
  | step _ harc _ _ _ htotal ih =>
    obtain ⟨i, -, hentry, hprice⟩ := mem_arcsFrom.mp harc
    have hreduced := reducedCost_of_arcCosts hcosts hentry hprice
    rw [adjustedAlong] at ih ⊢
    rw [List.foldlM_append, ih]
    simp [bind, Except.bind, pure, Except.pure, hreduced, htotal]

/-- A path arrives with one amount for each resource. -/
theorem length_resources (h : Arrives search costs path node used cost)
    (hwell : search.WellFormed) : used.length = search.network.windows.length := by
  induction h with
  | start => simp [Network.numResources]
  | step _ harc _ hused _ _ ih =>
    have hlength := hwell.network.length_consumption _ (hwell.mem_arcs harc).1
    rw [length_of_extendResources hused (by rw [ih, hlength]; rfl), ih]

end Arrives

end Totals

section Tracing

/-- Every label of the pools that a search comes by has its identifier and spells a path. -/
theorem Seen.traced (hwell : search.WellFormed) {pool : LabelPool Int α}
    (h : Seen search costs pool) {id : Nat} {label : Label Int α}
    (hlabel : pool.history[id]? = some label) :
    label.id = (id : Int) ∧ ∃ path, Spells search costs pool.history id path := by
  -- the label that is being created extends one of a reached point
  have hcreated : ∀ {state : State Int α} {node last : Nat} {todo : List Nat}
      {previous : Label Int α} {arc : Arc Int α} {price : α} {arcs : List (Arc Int α × α)}
      {used : List α} {cost : α},
      Reached search costs ⟨.extending node todo last previous ((arc, price) :: arcs), state⟩ →
      search.extension state.pool previous arc price = .ok (.inside used cost) →
      (withExtension state.pool previous arc used cost).history[id]? = some label →
      label.id = (id : Int) ∧
        ∃ path, Spells search costs (withExtension state.pool previous arc used cost).history id
          path := by
    intro state node last todo previous arc price arcs used cost hreached hinside hlabel
    have hbooks := hreached.books hwell
    obtain ⟨-, hprevious, hnode, -, hsuffix⟩ := hbooks.phase
    obtain ⟨hused, hwithin, htotal⟩ := of_extension_inside hinside
    rw [history_withExtension] at hlabel ⊢
    refine ⟨?_, spells_concat (fun _ _ hknown => hreached.spells hwell hknown) hprevious hnode
      (hsuffix.mem List.mem_cons_self)
      (congrArg some (hbooks.numbered last previous.unflagged hprevious)) rfl rfl hused hwithin
      htotal hlabel⟩
    rw [List.getElem?_append] at hlabel
    split at hlabel
    · exact hbooks.numbered id label hlabel
    · next hge =>
      rw [List.getElem?_singleton, LabelPool.length_history] at hlabel
      rw [LabelPool.length_history] at hge
      split at hlabel
      · rw [← Option.some.inj hlabel]
        change (state.pool.numCreated : Int) = id
        omega
      · simp at hlabel
  cases h with
  | point hreached => exact ⟨(hreached.books hwell).numbered id label hlabel,
      hreached.spells hwell hlabel⟩
  | created hreached hinside => exact hcreated hreached hinside hlabel
  | inserted hreached hinside =>
    rw [LabelPool.history_insert] at hlabel ⊢
    exact hcreated hreached hinside hlabel

/-- A label that spells a path stands for it. -/
theorem Spells.standsFor (hwell : search.WellFormed) (hcosts : search.arcCosts duals = .ok costs)
    {pool : LabelPool Int α} {id : Nat} {path : List (Arc Int α)} {label : Label Int α}
    (h : Spells search costs pool.history id path) (hlabel : pool.arena[id]? = some label)
    (hid : label.id = (id : Int)) : StandsFor search duals pool id label path := by
  have hhistory : pool.history[id]? = some label.unflagged := by
    rw [LabelPool.getElem?_history, hlabel]
    rfl
  obtain ⟨node, hnode⟩ := h.exists_node hwell hhistory
  change label.node = (node : Int) at hnode
  have harrives := h.arrives hhistory hnode
  refine ⟨hid, ?_, h.arcPath_eq hlabel, h.nodePath_eq hlabel, hnode ▸ harrives.isWalk hwell,
    harrives.usedAlong_eq, harrives.adjustedAlong_eq hcosts, harrives.length_resources hwell, ?_⟩
  · intro previous hprevious
    cases h with
    | first hfirst =>
      rw [hhistory, Option.some.injEq] at hfirst
      have hnone : label.predecessor = none := congrArg Label.predecessor hfirst
      simp [hnone] at hprevious
    | @next before _ _ _ _ _ _ _ _ hlt _ hknown _ _ hpredecessor =>
      rw [hhistory, Option.some.injEq] at hknown
      subst hknown
      change label.predecessor = some (before : Int) at hpredecessor
      rw [hpredecessor, Option.mem_some_iff] at hprevious
      omega
  · intro hne
    cases h with
    | first => exact absurd rfl hne
    | next _ _ _ hknown _ _ _ _ _ _ hwithin =>
      rw [hhistory, Option.some.injEq] at hknown
      subst hknown
      exact hwithin

end Tracing

section Reading

variable {value : α → Rat}

/-- The value of a sum of products is that of the pattern under the values of the weights. -/
theorem value_dot? (hexact : Quantity.IsExact value) {weights : List α} {counts : List Nat} {sum : α}
    (h : Quantity.dot? weights (counts.map fun count : Nat => Quantity.ofInt (count : Int)) = .ok sum) :
    value sum = weigh (weights.map value) counts := by
  have hfold : ∀ (weights : List α) (counts : List Nat) (first sum : α),
      (weights.zip (counts.map fun count : Nat => (Quantity.ofInt (count : Int) : α))).foldlM
        (fun sum pair => do Quantity.add? sum (← Quantity.mul? pair.1 pair.2)) first = .ok sum →
      value sum = value first + weigh (weights.map value) counts := by
    intro weights
    induction weights with
    | nil =>
      intro counts first sum hsum
      rw [← Except.ok.inj hsum]
      simp
    | cons weight weights ih =>
      intro counts first sum hsum
      cases counts with
      | nil =>
        rw [← Except.ok.inj hsum]
        simp
      | cons count counts =>
        rw [List.map_cons, List.zip_cons_cons, List.foldlM_cons] at hsum
        obtain ⟨next, hnext, hsum⟩ := bind_eq_ok.mp hsum
        obtain ⟨product, hproduct, hnext⟩ := bind_eq_ok.mp hnext
        rw [ih counts next sum hsum, hexact.add _ _ _ hnext, hexact.mul _ _ _ hproduct,
          hexact.ofInt, List.map_cons, weigh_cons]
        push_cast
        ring
  rw [hfold weights counts (Quantity.ofInt 0) sum h, hexact.ofInt, Int.cast_zero, zero_add]

/-- The value of the cost along a path. -/
theorem value_costAlong (hexact : Quantity.IsExact value) {path : List (Arc Int α)} {total : α}
    (h : costAlong path = .ok total) : value total = (path.map fun arc => value arc.cost).sum := by
  have hfold : ∀ (path : List (Arc Int α)) (first total : α),
      (path.map (·.cost)).foldlM Quantity.add? first = .ok total →
      value total = value first + (path.map fun arc => value arc.cost).sum := by
    intro path
    induction path with
    | nil =>
      intro first total htotal
      rw [← Except.ok.inj htotal]
      simp
    | cons arc path ih =>
      intro first total htotal
      rw [List.map_cons, List.foldlM_cons] at htotal
      obtain ⟨next, hnext, htotal⟩ := bind_eq_ok.mp htotal
      rw [ih next total htotal, hexact.add _ _ _ hnext, List.map_cons, List.sum_cons, add_assoc]
  rw [hfold path Quantity.zero total h, hexact.zero, zero_add]

/-- The value of an adjusted cost is that of the cost less the dual of the covered item. -/
theorem value_reducedCost (hexact : Quantity.IsExact value) {arc : Arc Int α} {price : α}
    (hitem : ∀ item ∈ arc.item, 0 ≤ item)
    (h : arc.reducedCost (Position.entry duals) = .ok price) :
    value price = value arc.cost - itemWeight (duals.map value) arc := by
  rw [Arc.reducedCost] at h
  rcases hcovers : arc.item with - | item
  · rw [hcovers] at h
    rw [← Except.ok.inj h]
    simp [itemWeight, hcovers]
  · rw [hcovers] at h
    obtain ⟨dual, hdual, h⟩ := bind_eq_ok.mp h
    have hnonneg := hitem item hcovers
    have hentry : duals[item.toNat]? = some dual := by
      simp only [Position.entry, Position.toInt, entryAt, entryAt?, hnonneg, if_true, bind,
        Except.bind] at hdual
      split at hdual
      · next entry hentry => rw [hentry, Except.ok.inj hdual]
      · cases hdual
    rw [hexact.sub _ _ _ h]
    simp [itemWeight, hcovers, List.getD_eq_getElem?_getD, hentry]

/-- The value of the adjusted cost along a path is that of the costs less the duals of the covered
items. -/
theorem value_adjustedAlong (hexact : Quantity.IsExact value) {path : List (Arc Int α)} {total : α}
    (hitems : ∀ arc ∈ path, ∀ item ∈ arc.item, 0 ≤ item)
    (h : adjustedAlong duals path = .ok total) :
    value total = (path.map fun arc => value arc.cost).sum -
      (path.map (itemWeight (duals.map value))).sum := by
  have hfold : ∀ (path : List (Arc Int α)) (first total : α),
      (∀ arc ∈ path, ∀ item ∈ arc.item, 0 ≤ item) →
      path.foldlM (fun total arc => do
        Quantity.add? total (← arc.reducedCost (Position.entry duals))) first = .ok total →
      value total = value first + ((path.map fun arc => value arc.cost).sum -
        (path.map (itemWeight (duals.map value))).sum) := by
    intro path
    induction path with
    | nil =>
      intro first total _ htotal
      rw [← Except.ok.inj htotal]
      simp
    | cons arc path ih =>
      intro first total hitems htotal
      rw [List.foldlM_cons] at htotal
      obtain ⟨next, hnext, htotal⟩ := bind_eq_ok.mp htotal
      obtain ⟨price, hprice, hnext⟩ := bind_eq_ok.mp hnext
      rw [ih next total (fun other hother => hitems other (List.mem_cons_of_mem _ hother)) htotal,
        hexact.add _ _ _ hnext, value_reducedCost hexact (hitems arc List.mem_cons_self) hprice]
      simp only [List.map_cons, List.sum_cons]
      ring
  rw [hfold path Quantity.zero total hitems h, hexact.zero, zero_add]

/-- The offer that a search makes for the best label at the sink describes the path that the label
stands for. -/
theorem describes_of_offerAt (hwell : search.WellFormed) {state : State Int α} {offer : Offer α}
    {label : Label Int α} {id : Nat} {path : List (Arc Int α)}
    (hoffer : search.offerAt duals state = .ok offer)
    (hbest : search.bestAtSink? state.pool = some label)
    (hlabel : state.pool.arena[id]? = some label)
    (hspells : Spells search costs state.pool.history id path)
    (hstands : StandsFor search duals state.pool id label path) :
    Describes search path label offer := by
  have harcs : ∀ arc ∈ path, arc ∈ search.network.arcs := fun arc harc => hstands.isWalk.mem_arcs harc
  obtain ⟨column, reducedCost, hcolumn, hreduced, rfl⟩ := of_offerAt hbest hoffer
  rw [hwell.columnOf_eq hlabel hspells harcs] at hcolumn
  obtain ⟨pathCost, hpathCost, hcolumn⟩ := bind_eq_ok.mp hcolumn
  obtain ⟨cost, hcost, hcolumn⟩ := bind_eq_ok.mp hcolumn
  obtain rfl := Except.ok.inj hcolumn
  refine ⟨?_, fun item hitem => ?_, ⟨pathCost, hpathCost, hcost⟩, rfl, fun value hexact => ?_⟩
  · have hnonneg := hwell.numItems_nonneg
    change ((itemCounts search.numItems.toNat path).length : Int) = search.numItems
    rw [length_itemCounts]
    omega
  · change item < (itemCounts search.numItems.toNat path).length at hitem
    rw [length_itemCounts] at hitem
    change (itemCounts search.numItems.toNat path)[item]? = _
    simp [itemCounts, hitem]
  · obtain ⟨worth, hworth, hreduced⟩ := bind_eq_ok.mp hreduced
    rw [Column.dualValue] at hworth
    split at hworth
    · cases hworth
    · have hitems : ∀ arc ∈ path, ∀ item ∈ arc.item, 0 ≤ item :=
        fun arc harc => hwell.network.item_nonneg arc (harcs arc harc)
      have hlabelCost := value_adjustedAlong hexact hitems hstands.adjustedAlong_eq
      have hweigh := weigh_itemCounts (duals.map value) (hwell.itemsBelow harcs)
      change value reducedCost = _
      rw [hexact.sub _ _ _ hreduced, hexact.add _ _ _ hcost, value_costAlong hexact hpathCost,
        value_dot? hexact hworth, hweigh, hlabelCost]
      ring

/-- A label that is seen under an identifier stands for the path that is spelled there. -/
theorem Seen.exists_standsFor (hwell : search.WellFormed) (hcosts : search.arcCosts duals = .ok costs)
    {pool : LabelPool Int α} (h : Seen search costs pool) {id : Nat} {label : Label Int α}
    (hlabel : pool.arena[id]? = some label) :
    ∃ path, Spells search costs pool.history id path ∧ StandsFor search duals pool id label path := by
  have hhistory : pool.history[id]? = some label.unflagged := by
    rw [LabelPool.getElem?_history, hlabel]
    rfl
  obtain ⟨hid, path, hpath⟩ := h.traced hwell hhistory
  exact ⟨path, hpath, hpath.standsFor hwell hcosts hlabel hid⟩

/-- The offer at the end of a search is read off the best label at the sink. -/
theorem Reached.isReadOff (hwell : search.WellFormed) (hcosts : search.arcCosts duals = .ok costs)
    {state : State Int α} (h : Reached search costs ⟨.idle, state⟩) {offer : Offer α}
    {label : Label Int α} (hoffer : search.offerAt duals state = .ok offer)
    (hbest : search.bestAtSink? state.pool = some label) :
    IsReadOff search duals state.pool label offer := by
  obtain ⟨id, -, hlabel⟩ := of_bestAtSink? hbest
  obtain ⟨path, hpath, hstands⟩ := (Seen.point h).exists_standsFor hwell hcosts hlabel
  refine ⟨?_, id, path, hlabel, hstands,
    describes_of_offerAt hwell hoffer hbest hlabel hpath hstands⟩
  obtain ⟨column, reducedCost, hcolumn, hreduced, rfl⟩ := of_offerAt hbest hoffer
  exact ⟨column, hcolumn, hreduced, rfl⟩

/-- What is priced is read off the best label at the sink. -/
theorem isReadOff_of_price (hwell : search.WellFormed) {given : List α}
    (hread : readDuals search.numItems given = .ok duals)
    (hcosts : search.arcCosts duals = .ok costs) {fuel : Nat} {offer : Offer α}
    {pool : LabelPool Int α} {label : Label Int α}
    (hprice : (search.priceWithLabels fuel given).2 = .ok (offer, pool))
    (hbest : search.bestAtSink? pool = some label) :
    IsReadOff search duals pool label offer := by
  obtain ⟨final, found, hexplore, hfound, rfl, rfl⟩ := of_priceWithLabels hread hprice
  obtain ⟨same, hsame, hreached, -⟩ := reached_of_explore hexplore
  obtain rfl := Except.ok.inj (hcosts.symm.trans hsame)
  obtain ⟨hcolumn, id, path, hlabel, hstands, hdescribes⟩ :=
    hreached.isReadOff hwell hcosts hfound hbest
  exact ⟨hcolumn, id, path, hlabel, hstands, { hdescribes with }⟩

end Reading

/-- At every point of a search on a network that was built by the operations, and however it ends,
every label of the arena stands for a path. The offer that is made for a label at the sink describes
the path of that label. -/
theorem labels_stand_for_paths {network : Network Int α} (hbuilt : network.Built)
    {numItems : Option Int} {settings : PricingSettings α}
    (hmake : make network numItems settings = .ok search) {given : List α}
    (hread : readDuals search.numItems given = .ok duals)
    (hcosts : search.arcCosts duals = .ok costs) :
    (search.network = network ∧ search.settings = settings ∧
      network.source = some (search.source : Int) ∧ network.sink = some (search.sink : Int)) ∧
    (∀ fuel, Seen search costs (search.run costs fuel search.start).pool) ∧
    (∀ pool, Seen search costs pool → ∀ (id : Nat) label, pool.arena[id]? = some label →
      ∃ path, StandsFor search duals pool id label path) ∧
    ∀ fuel offer pool label, (search.priceWithLabels fuel given).2 = .ok (offer, pool) →
      search.bestAtSink? pool = some label →
      Seen search costs pool ∧ label.node = (search.sink : Int) ∧
      ∃ (id : Nat) (path : List (Arc Int α)), pool.arena[id]? = some label ∧
        StandsFor search duals pool id label path ∧ Describes search path label offer := by
  obtain ⟨hwell, rfl, rfl⟩ := wellFormed_of_make hbuilt.wellFormed hmake
  refine ⟨⟨rfl, rfl, hwell.source_eq, hwell.sink_eq⟩,
    fun fuel => seen_run hwell fuel Relation.ReflTransGen.refl, ?_, ?_⟩
  · intro pool hseen id label hlabel
    obtain ⟨path, -, hstands⟩ := hseen.exists_standsFor hwell hcosts hlabel
    exact ⟨path, hstands⟩
  · intro fuel offer pool label hprice hbest
    obtain ⟨final, _, hexplore, -, rfl, -⟩ := of_priceWithLabels hread hprice
    obtain ⟨same, hsame, hreached, -⟩ := reached_of_explore hexplore
    obtain rfl := Except.ok.inj (hcosts.symm.trans hsame)
    obtain ⟨live, hlive, hlabel⟩ := of_bestAtSink? hbest
    obtain ⟨known, hknown, hnode⟩ := (hreached.books hwell).standsAt hlive
    change final.pool.history[live]? = some known at hknown
    rw [LabelPool.getElem?_history, hlabel] at hknown
    obtain rfl := Option.some.inj hknown
    exact ⟨.point hreached, hnode,
      (isReadOff_of_price hwell hread hcosts hprice hbest).describes⟩

/-- A network with a loop that covers an item, where dominance takes labels out and the best label at
the sink goes around the loop twice. -/
theorem labels_stand_for_paths_loop :
    ∃ (network : Network Int Rat) (search : PathSearch Int Rat) (costs : Array Rat)
      (offer : Offer Rat) (pool : LabelPool Int Rat) (label : Label Int Rat) (id : Nat)
      (path : List (Arc Int Rat)),
      network.Built ∧ make network none ⟨1, 0, true⟩ = .ok search ∧
      readDuals search.numItems [(2 : Rat)] = .ok [2] ∧ search.arcCosts [2] = .ok costs ∧
      (search.priceWithLabels 20 [2]).2 = .ok (offer, pool) ∧
      search.bestAtSink? pool = some label ∧ pool.numDominated = 1 ∧
      offer.column.counts = [2] ∧ pool.arena[id]? = some label ∧
      StandsFor search [2] pool id label path ∧ Describes search path label offer ∧
      offer.reducedCost = search.settings.unitCost + label.cost := by
  generalize hassembled : Network.assemble [⟨some 0, some 10, .null⟩] 3 0 2
    [(0, 1, 0, [2], none), (0, 1, 1, [2], none), (1, 1, 1, [4], some 0), (1, 2, 0, [0], none)] =
      assembled
  have hrun : (assembled.toOption.bind fun network =>
      (make network none ⟨1, 0, true⟩).toOption.bind fun search =>
        (search.priceWithLabels 20 [2]).2.toOption.bind fun (offer, pool) =>
          (search.bestAtSink? pool).map fun label =>
            (search.numItems, pool.numDominated, offer.column.counts, label.cost)) =
      some (1, 1, [2], -2) := by
    rw [← hassembled]
    decide +kernel
  obtain ⟨network, hnetwork, hrun⟩ := Option.bind_eq_some_iff.mp hrun
  obtain ⟨search, hsearch, hrun⟩ := Option.bind_eq_some_iff.mp hrun
  obtain ⟨⟨offer, pool⟩, hprice, hrun⟩ := Option.bind_eq_some_iff.mp hrun
  obtain ⟨label, hbest, hrun⟩ := Option.map_eq_some_iff.mp hrun
  simp only [Prod.mk.injEq] at hrun
  obtain ⟨hitems, hdominated, hcounts, -⟩ := hrun
  rw [toOption_eq_some] at hnetwork hsearch hprice
  have hbuilt := Network.built_of_assemble (hassembled.trans hnetwork)
  have hlength : (([2] : List Rat).length : Int) = search.numItems := hitems.symm
  have hread := readDuals_eq_ok hlength
  have hcosts := (wellFormed_of_make hbuilt.wellFormed hsearch).1.arcCosts_eq hlength
  obtain ⟨-, -, -, hoffer⟩ := labels_stand_for_paths hbuilt hsearch hread hcosts
  obtain ⟨-, -, id, path, hlabel, hstands, hdescribes⟩ := hoffer 20 offer pool label hprice hbest
  exact ⟨network, search, _, offer, pool, label, id, path, hbuilt, hsearch, hread, hcosts, hprice,
    hbest, hdominated, hcounts, hlabel, hstands, hdescribes,
    hdescribes.reducedCost_eq _ Quantity.isExact_rat⟩

end PathSearch

end PatternCovering
