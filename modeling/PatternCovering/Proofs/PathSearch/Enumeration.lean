import PatternCovering.Proofs.PathSearch.Labels
import PatternCovering.Proofs.PathSearch.Limit

/-!
# Searches that follow every walk

Without dominance no label is ever taken out, so that every label is extended before a search ends,
and along every arc. The labels of a search that ends by itself are then the walks from the source
that stay inside the windows, each of them once: a walk is missed at no node, although nodes are
visited many times, and no walk is followed twice, although live labels are looked at again in every
visit.

What is offered is read off the first label at the sink: the cheapest one, and the oldest of those that
cost the same.
-/

namespace PatternCovering

variable {α : Type} [Quantity α]

namespace PathSearch

variable {search : PathSearch Int α} {costs : Array α} {duals : List α}

/-- Whether a walk starts at the source and what is used along each of its parts is inside the
windows. -/
def IsFeasible (search : PathSearch Int α) (walk : List (Arc Int α)) : Prop :=
  (∃ node, search.network.IsWalk search.source walk node) ∧
    ∀ part, part <+: walk → part ≠ [] → ∃ used, search.usedAlong part = .ok used ∧
      Window.containsAll search.network.windows used = .ok true

/-- What it means that the labels of a pool are the feasible walks: reading a label back gives a
bijection between the labels and the walks, no label is flagged or has left its node, and the offer is
read off the label at the sink that is the least by its cost and then by its identifier. -/
structure Enumerates (search : PathSearch Int α) (duals : List α) (pool : LabelPool Int α)
    (offer : Offer α) : Prop where
  bijective : ∃ walkOf : Fin pool.numCreated → {walk // search.IsFeasible walk},
    Function.Bijective walkOf ∧ ∀ (id : Fin pool.numCreated) (label : Label Int α)
      (walk : {walk // search.IsFeasible walk}), pool.arena[id.1]? = some label →
        (pool.arcPath label = .ok (walk.1.map fun arc => some arc.index) ↔ walkOf id = walk)
  live : ∀ (id : Nat) (label : Label Int α), pool.arena[id]? = some label →
    label.dominated = false ∧ ∃ node : Nat, label.node = (node : Int) ∧ id ∈ pool.liveAt node
  first : NoNaNAt pool search.sink → (∃ label ∈ pool.history, label.node = (search.sink : Int)) →
    ∃ (id : Nat) (best : Label Int α), pool.arena[id]? = some best ∧
      best.node = (search.sink : Int) ∧ IsReadOff search duals pool best offer ∧
      ∀ (other : Nat) (label : Label Int α), pool.arena[other]? = some label →
        label.node = (search.sink : Int) → other ≠ id →
        Quantity.lt best.cost label.cost = true ∨
          (Quantity.eq best.cost label.cost = true ∧ id < other)

section Walks

variable {walk : List (Arc Int α)} {arc : Arc Int α}

/-- A feasible walk that takes one arc more. -/
theorem isFeasible_concat (h : search.IsFeasible (walk ++ [arc])) :
    search.IsFeasible walk ∧ search.network.IsWalk search.source walk arc.source ∧
      arc ∈ search.network.arcs ∧ ∃ used, search.usedAlong (walk ++ [arc]) = .ok used ∧
        Window.containsAll search.network.windows used = .ok true := by
  obtain ⟨⟨node, hwalk⟩, hparts⟩ := h
  obtain ⟨hwalk, harc, -⟩ := Network.isWalk_concat.mp hwalk
  refine ⟨⟨⟨_, hwalk⟩, fun part hpart => hparts part (hpart.trans (List.prefix_append _ _))⟩, hwalk,
    harc, hparts _ (List.prefix_refl _) (by simp)⟩

/-- A path that arrives is feasible. -/
theorem Arrives.isFeasible {node : Nat} {used : List α} {cost : α}
    (h : Arrives search costs walk node used cost) (hwell : search.WellFormed) :
    search.IsFeasible walk := by
  refine ⟨⟨node, h.isWalk hwell⟩, ?_⟩
  induction h with
  | start => exact fun part hpart hne => absurd (List.prefix_nil.mp hpart) hne
  | step hpath harc htarget hused hwithin htotal ih =>
    intro part hpart hne
    rcases List.prefix_concat_iff.mp hpart with rfl | hpart
    · exact ⟨_, (Arrives.step hpath harc htarget hused hwithin htotal).usedAlong_eq, hwithin⟩
    · exact ih part hpart hne

/-- An arc of the network has an adjusted cost at the node that it leaves. -/
theorem WellFormed.exists_mem_arcsFrom (hwell : search.WellFormed)
    (hcosts : search.arcCosts duals = .ok costs) (harc : arc ∈ search.network.arcs) {node : Nat}
    (hsource : arc.source = (node : Int)) : ∃ price, (arc, price) ∈ search.arcsFrom costs node := by
  obtain ⟨i, hi⟩ := Array.mem_iff_getElem?.mp harc
  obtain ⟨price, hprice, -⟩ := exists_of_arcCosts hcosts hi
  exact ⟨price, mem_arcsFrom.mpr
    ⟨i, (hwell.network.mem_leaving node i).mpr ⟨arc, hi, hsource⟩, hi, hprice⟩⟩

/-- Walks of the network that are read back alike are the same. -/
theorem WellFormed.eq_of_readBack (hwell : search.WellFormed) {other : List (Arc Int α)}
    (hwalk : search.IsFeasible walk) (hother : search.IsFeasible other)
    (h : (walk.map fun arc => some arc.index) = other.map fun arc => some arc.index) :
    walk = other := by
  obtain ⟨⟨node, hwalk⟩, -⟩ := hwalk
  obtain ⟨⟨place, hother⟩, -⟩ := hother
  refine hwell.network.eq_of_indices (fun _ => hwalk.mem_arcs) (fun _ => hother.mem_arcs) ?_
  have hmap : ∀ path : List (Arc Int α),
      (path.map fun arc => some arc.index) = (path.map (·.index)).map some := by simp
  rw [hmap, hmap] at h
  exact List.map_injective_iff.mpr (Option.some_injective Int) h

end Walks

section Labels

variable {config : Config α} {state : State Int α}

/-- Without dominance every label that was created is live. -/
theorem Reached.exists_live (hwell : search.WellFormed)
    (hcheck : search.settings.useDominance = false) (h : Reached search costs config) {id : Nat}
    (hid : id < config.state.pool.numCreated) : ∃ node, id ∈ config.state.pool.liveAt node := by
  revert id
  refine h.induct (P := fun config => ∀ {id : Nat}, id < config.state.pool.numCreated →
    ∃ node, id ∈ config.state.pool.liveAt node) ?_ ?_
  · intro id hid
    change id < search.start.pool.numCreated at hid
    rw [← LabelPool.length_history, history_start search hwell.source_lt, List.length_singleton,
      Nat.lt_one_iff] at hid
    exact ⟨search.source, by simp [hid, liveAt_start search hwell.source_lt]⟩
  · intro before after hreached hmove ih id hid
    have hbooks := hreached.books hwell
    rcases hbooks.pool_cases hwell hmove with hsame |
      ⟨_, _, _, _, _, _, _, _, _, target, _, -, -, -, g⟩
    · rw [hsame] at hid ⊢
      exact ih hid
    · rw [g.numCreated_eq, Nat.lt_succ_iff_lt_or_eq] at hid
      rcases hid with hold | rfl
      · obtain ⟨node, hlive⟩ := ih hold
        obtain ⟨label, hlabel, -⟩ := hbooks.standsAt hlive
        rcases g.live_or_dominated hbooks hlabel hlive with hlive | ⟨hchecked, -⟩
        · exact ⟨node, hlive⟩
        · rw [hcheck] at hchecked
          cases hchecked
      · rcases g.created_cases hbooks with ⟨-, hlive⟩ | ⟨-, hchecked, -⟩
        · exact ⟨target, hlive⟩
        · rw [hcheck] at hchecked
          cases hchecked

/-- When a search without dominance has ended by itself, every feasible walk has a label. -/
theorem Reached.exists_spells (hwell : search.WellFormed)
    (hcosts : search.arcCosts duals = .ok costs) (hcheck : search.settings.useDominance = false)
    (h : Reached search costs ⟨.idle, state⟩) (hstop : state.stop = none) (hqueue : state.queue = [])
    {walk : List (Arc Int α)} (hwalk : search.IsFeasible walk) :
    ∃ id, Spells search costs state.pool.history id walk := by
  induction walk using List.reverseRecOn with
  | nil => exact ⟨0, Spells.first (h.history_zero hwell)⟩
  | append_singleton walk arc ih =>
    obtain ⟨hinitial, hends, harc, more, hmore, hwithin⟩ := isFeasible_concat hwalk
    obtain ⟨id, hspells⟩ := ih hinitial
    obtain ⟨label, hlabel⟩ : ∃ label, state.pool.history[id]? = some label :=
      ⟨_, List.getElem?_eq_getElem hspells.lt_length⟩
    obtain ⟨node, hnode⟩ := hspells.exists_node hwell hlabel
    have harrives := hspells.arrives hlabel hnode
    -- the arc leaves the node of the label, because a walk has one end
    have hsource : arc.source = (node : Int) := hends.unique (harrives.isWalk hwell)
    obtain ⟨price, hprice⟩ := hwell.exists_mem_arcsFrom hcosts harc hsource
    have hused : extendResources label.resources arc.consumption = .ok more := by
      rw [usedAlong_concat, harrives.usedAlong_eq] at hmore
      exact hmore
    obtain ⟨place, hlive⟩ := h.exists_live hwell hcheck (LabelPool.length_history _ ▸ hspells.lt_length)
    have hextended := (h.worklist hwell).extended_of_finished hstop hqueue hlive
    obtain ⟨other, next, hlt, hnext, hpredecessor, hindex, htarget, rfl, hcost⟩ :=
      h.follows hwell hstop id label node arc price more hlabel hnode hextended hprice not_false hused
        hwithin
    exact ⟨other, hspells.next hlt hlabel hnext hnode hprice hpredecessor hindex htarget hused hwithin
      hcost⟩

/-- The labels of a search that has ended by itself without dominance are the feasible walks. -/
theorem Reached.bijective (hwell : search.WellFormed) (hcosts : search.arcCosts duals = .ok costs)
    (hcheck : search.settings.useDominance = false) (h : Reached search costs ⟨.idle, state⟩)
    (hstop : state.stop = none) (hqueue : state.queue = []) :
    ∃ walkOf : Fin state.pool.numCreated → {walk // search.IsFeasible walk},
      Function.Bijective walkOf ∧ ∀ (id : Fin state.pool.numCreated) (label : Label Int α)
        (walk : {walk // search.IsFeasible walk}), state.pool.arena[id.1]? = some label →
          (state.pool.arcPath label = .ok (walk.1.map fun arc => some arc.index) ↔
            walkOf id = walk) := by
  have hpaths : ∀ id : Fin state.pool.numCreated, ∃ walk : {walk // search.IsFeasible walk},
      Spells search costs state.pool.history id walk.1 := by
    intro id
    have hid : id.1 < state.pool.history.length := (LabelPool.length_history _).symm ▸ id.2
    obtain ⟨path, hpath⟩ := h.spells hwell (List.getElem?_eq_getElem hid)
    obtain ⟨node, used, cost, harrives⟩ := hpath.exists_arrives hwell
    exact ⟨⟨path, harrives.isFeasible hwell⟩, hpath⟩
  choose walkOf hwalkOf using hpaths
  refine ⟨walkOf, ⟨fun first second heq => ?_, fun walk => ?_⟩, fun id label walk hlabel => ?_⟩
  · have hsecond := hwalkOf second
    rw [← heq] at hsecond
    exact Fin.ext (h.eq_of_spells hwell (hwalkOf first) hsecond)
  · obtain ⟨id, hid⟩ := h.exists_spells hwell hcosts hcheck hstop hqueue walk.2
    have hlt : id < state.pool.numCreated := LabelPool.length_history state.pool ▸ hid.lt_length
    have hlabel : state.pool.arena[id]? = some state.pool.arena[id] := Array.getElem?_eq_getElem hlt
    refine ⟨⟨id, hlt⟩, Subtype.ext (hwell.eq_of_readBack (walkOf _).2 walk.2 ?_)⟩
    exact Except.ok.inj (((hwalkOf ⟨id, hlt⟩).arcPath_eq hlabel).symm.trans (hid.arcPath_eq hlabel))
  · rw [(hwalkOf id).arcPath_eq hlabel, Except.ok.injEq]
    exact ⟨fun heq => Subtype.ext (hwell.eq_of_readBack (walkOf id).2 walk.2 heq),
      fun heq => by rw [heq]⟩

end Labels

section First

variable [Numeric α] [RealSums α] {state : State Int α}

/-- The cost of a label that spells a path is a real number. -/
theorem Spells.isReal_cost {history : List (Label Int α)} {id : Nat} {path : List (Arc Int α)}
    (h : Spells search costs history id path) {label : Label Int α}
    (hlabel : history[id]? = some label) : Numeric.IsReal label.cost := by
  induction h generalizing label with
  | first hfirst =>
    rw [hfirst, Option.some.injEq] at hlabel
    exact hlabel ▸ Numeric.zero
  | next _ _ hbefore hknown _ _ _ _ _ _ _ htotal ih =>
    rw [hknown, Option.some.injEq] at hlabel
    exact hlabel ▸ RealSums.isReal_add (ih hbefore) htotal

/-- Costs at a node are ordered where none of them is not-a-number. -/
theorem Reached.orderedAt (hwell : search.WellFormed) {config : Config α}
    (h : Reached search costs config) {node : Nat} (hordered : NoNaNAt config.state.pool node) :
    OrderedAt config.state.pool node := by
  intro label hlabel hat
  obtain ⟨id, hid⟩ := List.mem_iff_getElem?.mp hlabel
  obtain ⟨path, hpath⟩ := h.spells hwell hid
  exact ⟨hpath.isReal_cost hid, by simpa [Window.isNaN] using hordered label hlabel hat⟩

omit [RealSums α] in
/-- Where all labels are live and the costs at the sink are ordered, the label that is chosen there is
the least one by its cost and then by its identifier. -/
theorem Reached.exists_first (hwell : search.WellFormed)
    (hcheck : search.settings.useDominance = false) {config : Config α}
    (h : Reached search costs config) (hordered : OrderedAt config.state.pool search.sink)
    (hcreated : ∃ label ∈ config.state.pool.history, label.node = (search.sink : Int)) :
    ∃ (id : Nat) (best : Label Int α), search.bestAtSink? config.state.pool = some best ∧
      config.state.pool.arena[id]? = some best ∧ best.node = (search.sink : Int) ∧
      ∀ (other : Nat) (label : Label Int α), config.state.pool.arena[other]? = some label →
        label.node = (search.sink : Int) → other ≠ id →
        Quantity.lt best.cost label.cost = true ∨
          (Quantity.eq best.cost label.cost = true ∧ id < other) := by
  have hbooks := h.books hwell
  obtain ⟨best, hbest⟩ := h.exists_cheapestAtSink hwell hordered hcreated
  have hcosts : ∀ entry ∈ (config.state.pool.liveAt search.sink).toList.filterMap
      (fun id => config.state.pool.arena[id]?.map (id, ·)), Numeric.IsOrdered entry.2.cost :=
    fun entry hentry => hordered entry.2.unflagged (hbooks.created_of_mem hentry).1
      (hbooks.created_of_mem hentry).2
  obtain ⟨id, hmem, hfirst⟩ := exists_precedes_of_best? hcosts hbest.chosen
  refine ⟨id, best, hbest.chosen, (mem_liveLabels.mp hmem).2, hbest.node_eq,
    fun other label hlabel hat hne => ?_⟩
  have hother : (other, label) ∈ (config.state.pool.liveAt search.sink).toList.filterMap
      (fun id => config.state.pool.arena[id]?.map (id, ·)) := by
    obtain ⟨node, hlive⟩ := h.exists_live hwell hcheck (Array.getElem?_eq_some_iff.mp hlabel).1
    obtain ⟨same, hsame, hplace, -⟩ := hbooks.sound.live node other hlive
    rw [hlabel, Option.some.injEq] at hsame
    obtain rfl : node = search.sink := Int.ofNat_inj.mp (hplace.symm.trans (hsame ▸ hat))
    exact mem_liveLabels.mpr ⟨hlive, hlabel⟩
  have hprecedes := hfirst _ hother
  rw [Numeric.lt_eq (hcosts _ hmem).real (hcosts _ hother).real,
    Numeric.eq_eq (hcosts _ hmem).real (hcosts _ hother).real, hprecedes.le]
  cases hge : Quantity.le label.cost best.cost with
  | false => exact Or.inl rfl
  | true => exact Or.inr ⟨rfl, lt_of_le_of_ne (hprecedes.old hge) hne.symm⟩

/-- A price that is returned without dominance and without a limit on labels, on a network that was
built by the operations, comes from a search whose labels are the feasible walks, each of them once;
it is that of the cheapest label at the sink, the oldest of those that cost the same. -/
theorem enumerates_of_price {network : Network Int α} (hbuilt : network.Built)
    {numItems : Option Int} {settings : PricingSettings α}
    (hmake : make network numItems settings = .ok search) (hcheck : settings.useDominance = false)
    (hlimit : Quantity.lt? (Quantity.ofInt 0) settings.maxLabels = .ok false) {fuel : Nat}
    {given : List α} {offer : Offer α} {pool : LabelPool Int α}
    (hprice : (search.priceWithLabels fuel given).2 = .ok (offer, pool)) :
    ∃ duals, readDuals search.numItems given = .ok duals ∧ Enumerates search duals pool offer := by
  obtain ⟨hwell, rfl, rfl⟩ := wellFormed_of_make hbuilt.wellFormed hmake
  obtain ⟨duals, hread⟩ : ∃ duals, readDuals search.numItems given = .ok duals := by
    rcases hread : readDuals search.numItems given with fault | duals
    · simp [priceWithLabels, hread] at hprice
    · exact ⟨duals, rfl⟩
  obtain ⟨final, found, hexplore, hfound, rfl, rfl⟩ := of_priceWithLabels hread hprice
  obtain ⟨costs, hcosts, hreached, hfinished⟩ := reached_of_explore hexplore
  have hstop : final.stop = none := hreached.stop_eq_none fun pool => by
    simp [full, hlimit, bind, Except.bind, pure, Except.pure]
  have hqueue : final.queue = [] := by
    simpa [State.isFinished, hstop] using hfinished
  refine ⟨duals, hread, hreached.bijective hwell hcosts hcheck hstop hqueue, ?_, ?_⟩
  · intro id label hlabel
    obtain ⟨node, hlive⟩ :=
      hreached.exists_live hwell hcheck (Array.getElem?_eq_some_iff.mp hlabel).1
    obtain ⟨same, hsame, hplace, hflag⟩ := (hreached.books hwell).sound.live node id hlive
    change final.pool.arena[id]? = some same at hsame
    obtain rfl : label = same := Option.some.inj (hlabel.symm.trans hsame)
    exact ⟨hflag, node, hplace, hlive⟩
  · intro hordered hcreated
    obtain ⟨id, best, hbest, hlabel, hat, hleast⟩ := hreached.exists_first hwell hcheck
      (hreached.orderedAt hwell hordered) hcreated
    exact ⟨id, best, hlabel, hat, isReadOff_of_price hwell hread hcosts hprice hbest, hleast⟩

end First

/-- A loop that costs two and takes a tenth of a resource, of which three tenths are allowed. -/
def roundedLoop : Network Int Datum :=
  oneLoop [⟨some (.float 0.0), some (.float 0.3), .text "time"⟩] (.float 2.0) [.float 0.1]

/-- The rounded loop is built by the operations. -/
theorem built_roundedLoop : roundedLoop.Built := built_oneLoop (.float 2.0) rfl

/-- Three tenths are more than allowed as doubles are added up, so that the loop is taken at most twice
and there are seven walks. All three of them that end at the sink cost the same, and the first one is
offered. -/
theorem enumerates_roundedLoop :
    ∃ (search : PathSearch Int Datum) (offer : Offer Datum) (pool : LabelPool Int Datum),
      roundedLoop.Built ∧ make roundedLoop none ⟨.float 1.0, .int 0, false⟩ = .ok search ∧
      Quantity.lt? (Quantity.ofInt 0) (Datum.int 0) = .ok false ∧
      (search.priceWithLabels 9 [.float 2.0]).2 = .ok (offer, pool) ∧ pool.numCreated = 7 ∧
      offer.column.counts = [0] ∧ NoNaNAt pool search.sink ∧
      (∃ label ∈ pool.history, label.node = (search.sink : Int)) ∧
      Enumerates search [.float 2.0] pool offer := by
  generalize hsearch : (⟨roundedLoop, 0, 2, 1, ⟨.float 1.0, .int 0, false⟩⟩ :
    PathSearch Int Datum) = search
  have hmake : make roundedLoop none ⟨.float 1.0, .int 0, false⟩ = .ok search := hsearch ▸ rfl
  have hread : readDuals search.numItems [Datum.float 2.0] = .ok [Datum.float 2.0] := hsearch ▸ rfl
  have hrun : (search.priceWithLabels 9 [.float 2.0]).2.toOption.map (fun (offer, pool) =>
      (pool.numCreated, offer.column.counts,
        decide (∃ label ∈ pool.history, label.node = (search.sink : Int)),
        decide (∀ label ∈ pool.history, label.node = (search.sink : Int) →
          Window.isNaN label.cost = false))) = some (7, [0], true, true) := by
    rw [← hsearch]
    decide +kernel
  obtain ⟨⟨offer, pool⟩, hprice, hrun⟩ := Option.map_eq_some_iff.mp hrun
  simp only [Prod.mk.injEq, decide_eq_true_eq] at hrun
  obtain ⟨hcount, hcounts, hcreated, hordered⟩ := hrun
  rw [toOption_eq_some] at hprice
  obtain ⟨duals, hduals, henumerates⟩ :=
    enumerates_of_price built_roundedLoop hmake rfl rfl hprice
  obtain rfl : [Datum.float 2.0] = duals := Except.ok.inj (hread.symm.trans hduals)
  exact ⟨search, offer, pool, built_roundedLoop, hmake, rfl, hprice, hcount, hcounts, hordered,
    hcreated, henumerates⟩

end PathSearch

end PatternCovering
