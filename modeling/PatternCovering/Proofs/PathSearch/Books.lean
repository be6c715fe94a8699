import PatternCovering.Proofs.Network.WellFormed
import PatternCovering.Proofs.PathSearch.Moves

/-!
# The books of a path search

At every point of a search on a well-formed network the live labels stand at the nodes that list
them, every label that is looked at exists, and one flag is kept for each label. With dominance, no
live label dominates another one at its node, so that the sweep that closes a visit changes nothing.

Nothing is assumed about costs and resources here.
-/

namespace PatternCovering

namespace PathSearch

variable {α : Type} {search : PathSearch Int α} {costs : Array α}

/-- A search whose network is well formed and has both ends, with all items priced. -/
structure WellFormed (search : PathSearch Int α) : Prop where
  network : search.network.WellFormed
  source_eq : search.network.source = some (search.source : Int)
  sink_eq : search.network.sink = some (search.sink : Int)
  source_lt : search.source < search.network.numNodes
  sink_lt : search.sink < search.network.numNodes
  numItems_nonneg : 0 ≤ search.numItems
  item_lt : ∀ arc ∈ search.network.arcs, ∀ item ∈ arc.item, item < search.numItems

/-- The larger one of two items. -/
theorem largerItem_eq_max (first second : Int) :
    Network.largerItem first second = max first second := by
  simp only [Network.largerItem, Position.lt]
  by_cases hlt : first < second
  · simp [hlt, Int.max_eq_right (Int.le_of_lt hlt)]
  · simp [hlt, Int.max_eq_left (Int.not_lt.mp hlt)]

/-- A bound holds of the largest one of some items exactly if it holds of each of them. -/
theorem foldl_largerItem_le {items : List Int} {first bound : Int} :
    items.foldl Network.largerItem first ≤ bound ↔ ∀ item ∈ first :: items, item ≤ bound := by
  induction items generalizing first with
  | nil => simp
  | cons next rest ih =>
    rw [List.foldl_cons, ih, largerItem_eq_max]
    simp only [List.forall_mem_cons, Int.max_le, and_assoc]

/-- The largest item is at most a bound from `-1` on exactly if every item that an arc covers is. -/
theorem maxItem_le {network : Network Int α} {bound : Int} (hbound : -1 ≤ bound) :
    network.maxItem ≤ bound ↔ ∀ arc ∈ network.arcs, ∀ item ∈ arc.item, item ≤ bound := by
  have hmem : ∀ item, item ∈ network.arcs.toList.filterMap (·.item) ↔
      ∃ arc ∈ network.arcs, item ∈ arc.item := by
    intro item
    rw [List.mem_filterMap]
    simp
  have hall : (∀ item ∈ network.arcs.toList.filterMap (·.item), item ≤ bound) ↔
      ∀ arc ∈ network.arcs, ∀ item ∈ arc.item, item ≤ bound := by
    constructor
    · exact fun h arc harc item hitem => h item ((hmem item).mpr ⟨arc, harc, hitem⟩)
    · intro h item hitem
      obtain ⟨arc, harc, hcovers⟩ := (hmem item).mp hitem
      exact h arc harc item hcovers
  rw [← hall]
  simp only [Network.maxItem]
  cases network.arcs.toList.filterMap (·.item) with
  | nil => simpa [Position.ofInt] using hbound
  | cons first rest => exact foldl_largerItem_le

/-- The number of items of a search is not negative and above every item that an arc covers. -/
theorem of_countItems {largest count : Int} {given : Option Int}
    (h : countItems largest given = .ok count) : 0 ≤ count ∧ largest < count := by
  cases given with
  | none =>
    by_cases hneg : largest + 1 < 0
    · simp [countItems, Position.next, Position.lt, Position.ofInt, bind, Except.bind, hneg] at h
    · simp only [countItems, Position.next, Position.lt, Position.ofInt, bind, Except.bind, hneg,
        decide_false, Bool.false_eq_true, if_false, pure, Except.pure, Except.ok.injEq] at h
      omega
  | some given =>
    by_cases hsmall : given ≤ largest
    · simp [countItems, Position.le, bind, Except.bind, hsmall] at h
    · by_cases hneg : given < 0
      · simp [countItems, Position.le, Position.lt, Position.ofInt, bind, Except.bind, hsmall,
          hneg] at h
      · simp only [countItems, Position.le, Position.lt, Position.ofInt, bind, Except.bind, hsmall,
          hneg, decide_false, Bool.false_eq_true, if_false, pure, Except.pure,
          Except.ok.injEq] at h
        omega

/-- A search that is made on a well-formed network is well formed. -/
theorem wellFormed_of_make {network : Network Int α} {numItems : Option Int}
    {settings : PricingSettings α} (hwell : network.WellFormed)
    (h : make network numItems settings = .ok search) :
    search.WellFormed ∧ search.network = network ∧ search.settings = settings := by
  simp only [make] at h
  split at h
  · simp at h
  · simp at h
  · next source sink hsource hsink =>
    obtain ⟨count, hcount, h⟩ := bind_eq_ok.mp h
    obtain ⟨hnonneg, hlargest⟩ := of_countItems hcount
    have hstart := hwell.hasStart source hsource
    have hfinish := hwell.hasFinish sink hsink
    obtain ⟨first, hfirst, h⟩ := bind_eq_ok.mp h
    obtain ⟨last, hlast, h⟩ := bind_eq_ok.mp h
    rw [Network.place_of_hasNode hstart, Except.ok.injEq] at hfirst
    rw [Network.place_of_hasNode hfinish, Except.ok.injEq] at hlast
    simp only [pure, Except.pure, Except.ok.injEq] at h
    subst h hfirst hlast
    have hfirst : (source.toNat : Int) = source := Int.toNat_of_nonneg hstart.1
    have hlast : (sink.toNat : Int) = sink := Int.toNat_of_nonneg hfinish.1
    have hfirstLt := hstart.2
    have hlastLt := hfinish.2
    refine ⟨⟨hwell, ?_, ?_, ?_, ?_, hnonneg, fun arc harc item hitem => ?_⟩, rfl, rfl⟩
    · exact hsource.trans (congrArg some hfirst.symm)
    · exact hsink.trans (congrArg some hlast.symm)
    · change source.toNat < network.numNodes
      omega
    · change sink.toNat < network.numNodes
      omega
    · have hbound : network.maxItem ≤ count - 1 := by omega
      have hle := (maxItem_le (by omega)).mp hbound arc harc item hitem
      change item < count
      omega

/-- The arcs that leave a node are arcs of the network, each at the cost of its position. -/
theorem mem_arcsFrom {node : Nat} {arc : Arc Int α} {price : α} :
    (arc, price) ∈ search.arcsFrom costs node ↔
      ∃ i ∈ search.network.leaving node, search.network.arcs[i]? = some arc ∧
        costs[i]? = some price := by
  simp only [arcsFrom, Network.leaving, List.mem_filterMap]
  constructor
  · rintro ⟨i, hi, h⟩
    refine ⟨i, hi, ?_⟩
    split at h
    · next other cost harc hcost =>
      simp only [Option.some.injEq, Prod.mk.injEq] at h
      obtain ⟨rfl, rfl⟩ := h
      exact ⟨harc, hcost⟩
    · simp at h
  · rintro ⟨i, hi, harc, hcost⟩
    exact ⟨i, hi, by simp [harc, hcost]⟩

/-- An arc that leaves a node is an arc of the network that starts there. -/
theorem WellFormed.mem_arcs (hwell : search.WellFormed) {node : Nat} {arc : Arc Int α} {price : α}
    (h : (arc, price) ∈ search.arcsFrom costs node) :
    arc ∈ search.network.arcs ∧ arc.source = (node : Int) ∧
      search.network.arcs[arc.index.toNat]? = some arc ∧ costs[arc.index.toNat]? = some price := by
  obtain ⟨i, hi, harc, hcost⟩ := mem_arcsFrom.mp h
  obtain ⟨other, hother, hsource⟩ := (hwell.network.mem_leaving node i).mp hi
  have heq : other = arc := Option.some.inj (hother.symm.trans harc)
  have hindex : arc.index.toNat = i := by
    rw [hwell.network.index_eq i arc harc]
    exact Int.toNat_natCast i
  rw [hindex]
  exact ⟨Array.mem_of_getElem? harc, heq ▸ hsource, harc, hcost⟩

namespace State

variable (state : State Int α) (pool : LabelPool Int α) (target : Nat) (inserted : Bool)

@[simp]
theorem grown_pool : (state.grown pool target inserted).pool = pool := by
  simp only [grown, enqueue]
  repeat' split
  all_goals rfl

@[simp]
theorem grown_extended :
    (state.grown pool target inserted).extended = state.extended.push false := by
  simp only [grown, enqueue]
  repeat' split
  all_goals rfl

@[simp]
theorem grown_visits : (state.grown pool target inserted).visits = state.visits := by
  simp only [grown, enqueue]
  repeat' split
  all_goals rfl

@[simp]
theorem grown_stop : (state.grown pool target inserted).stop = state.stop := by
  simp only [grown, enqueue]
  repeat' split
  all_goals rfl

/-- A node joins the queue when a label became live at it and it does not wait already. -/
theorem grown_queue : (state.grown pool target inserted).queue =
    if inserted && !(state.waiting[target]?.getD false) then state.queue ++ [target]
    else state.queue := by
  cases inserted <;> cases hwaiting : state.waiting[target]?.getD false <;>
    simp [grown, enqueue, hwaiting]

/-- A node is marked as waiting when a label became live at it. -/
theorem grown_waiting : (state.grown pool target inserted).waiting =
    if inserted && !(state.waiting[target]?.getD false) then
      state.waiting.setIfInBounds target true
    else state.waiting := by
  cases inserted <;> cases hwaiting : state.waiting[target]?.getD false <;>
    simp [grown, enqueue, hwaiting]

end State

/-- The label that an extension creates. -/
def newLabel (pool : LabelPool Int α) (label : Label Int α) (arc : Arc Int α) (used : List α)
    (cost : α) : Label Int α where
  id := pool.numCreated
  node := arc.target
  resources := used
  cost := cost
  predecessor := some label.id
  arc := some arc.index

/-- The created label stands at the end of the history. -/
theorem history_withExtension (pool : LabelPool Int α) (label : Label Int α) (arc : Arc Int α)
    (used : List α) (cost : α) :
    (withExtension pool label arc used cost).history =
      pool.history ++ [newLabel pool label arc used cost] :=
  LabelPool.history_create pool arc.target used cost (some label.id) (some arc.index)

/-- Creating a label only extends the history. -/
theorem prefix_withExtension (pool : LabelPool Int α) (label : Label Int α) (arc : Arc Int α)
    (used : List α) (cost : α) :
    pool.history <+: (withExtension pool label arc used cost).history :=
  ⟨_, (history_withExtension pool label arc used cost).symm⟩

/-- The created label is the last one of the history. -/
theorem getElem?_history_withExtension (pool : LabelPool Int α) (label : Label Int α)
    (arc : Arc Int α) (used : List α) (cost : α) :
    (withExtension pool label arc used cost).history[pool.numCreated]? =
      some (newLabel pool label arc used cost) := by
  rw [history_withExtension, ← LabelPool.length_history, List.getElem?_concat_length]

/-- The created label is found under the next identifier. -/
theorem getElem?_withExtension (pool : LabelPool Int α) (label : Label Int α) (arc : Arc Int α)
    (used : List α) (cost : α) :
    (withExtension pool label arc used cost).arena[pool.numCreated]? =
      some (newLabel pool label arc used cost) := by
  simp [withExtension, LabelPool.create, LabelPool.numCreated, newLabel, Position.ofNat,
    Position.ofInt]

/-- Whether a label of the history stands at a node. -/
def StandsAt (pool : LabelPool Int α) (node id : Nat) : Prop :=
  ∃ label, pool.history[id]? = some label ∧ label.node = (node : Int)

/-- What a phase says of the state: labels still to be looked at stand at the node of the visit,
and the label that is extended has its flag set and follows arcs that leave the node. -/
def Phase.Fits (search : PathSearch Int α) (costs : Array α) (state : State Int α) : Phase α → Prop
  | .idle => True
  | .visiting node todo =>
    node < search.network.numNodes ∧ ∀ id ∈ todo, StandsAt state.pool node id
  | .extending node todo id label arcs =>
    (node < search.network.numNodes ∧ ∀ id ∈ todo, StandsAt state.pool node id) ∧
      state.pool.history[id]? = some label.unflagged ∧ label.node = (node : Int) ∧
      state.extended[id]? = some true ∧ arcs <:+ search.arcsFrom costs node

/-- A label of the history is found there as long as the history grows. -/
theorem getElem?_of_isPrefix {history grown : List (Label Int α)} (h : history <+: grown) {id : Nat}
    {label : Label Int α} (hlabel : history[id]? = some label) : grown[id]? = some label := by
  obtain ⟨more, rfl⟩ := h
  rw [List.getElem?_append_left (List.getElem?_eq_some_iff.mp hlabel).1, hlabel]

/-- A label stands at its node as long as the history grows. -/
theorem StandsAt.mono {pool after : LabelPool Int α} {node id : Nat} (h : StandsAt pool node id)
    (hinitial : pool.history <+: after.history) : StandsAt after node id := by
  obtain ⟨label, hlabel, hnode⟩ := h
  exact ⟨label, getElem?_of_isPrefix hinitial hlabel, hnode⟩

section Start

variable [Quantity α] (search)

/-- The label at the source with which a search starts. -/
def firstLabel : Label Int α where
  id := 0
  node := search.source
  resources := List.replicate search.network.numResources Quantity.zero
  cost := Quantity.zero

/-- The first label is live at the source, whether it is checked or not. -/
theorem start_pool (h : search.source < search.network.numNodes) :
    search.start.pool = { numNodes := (search.network.numNodes : Int)
                          arena := #[search.firstLabel]
                          live := (Array.replicate search.network.numNodes #[]).setIfInBounds
                            search.source #[0] } := by
  have hnode : LabelPool.nodeAt ({ numNodes := (search.network.numNodes : Int)
                                   arena := #[search.firstLabel]
                                   live := Array.replicate search.network.numNodes #[] } :
      LabelPool Int α) (search.source : Int) = .ok search.source :=
    LabelPool.nodeAt_natCast (by simpa using h)
  have hlive : (Array.replicate search.network.numNodes #[]).modify search.source (·.push 0) =
      (Array.replicate search.network.numNodes (#[] : Array Nat)).setIfInBounds
        search.source #[0] := by
    apply Array.ext_getElem?
    intro node
    rw [Array.getElem?_modify, Array.getElem?_setIfInBounds]
    by_cases heq : search.source = node
    · subst heq
      simp [h]
    · simp [heq]
  have hclear : (Array.replicate search.network.numNodes (#[] : Array Nat)).setIfInBounds
      search.source #[] = Array.replicate search.network.numNodes #[] := by
    apply Array.ext_getElem?
    intro node
    rw [Array.getElem?_setIfInBounds]
    by_cases heq : search.source = node
    · subst heq
      simp [h]
    · simp [heq]
  change (LabelPool.insert ({ numNodes := (search.network.numNodes : Int)
                              arena := #[search.firstLabel]
                              live := Array.replicate search.network.numNodes #[] } :
      LabelPool Int α) 0 search.settings.useDominance).1 = _
  have hlabel : (#[search.firstLabel] : Array (Label Int α))[0]? = some search.firstLabel := rfl
  have hplace : search.firstLabel.node = (search.source : Int) := rfl
  simp only [LabelPool.insert, hlabel, hplace, hnode]
  cases search.settings.useDominance with
  | false => simp [LabelPool.addLive, hlive]
  | true =>
    have hempty : LabelPool.liveAt ({ numNodes := (search.network.numNodes : Int)
                                      arena := #[search.firstLabel]
                                      live := Array.replicate search.network.numNodes #[] } :
        LabelPool Int α) search.source = #[] := by
      simp [LabelPool.liveAt, h]
    simp only [LabelPool.settle, hempty, if_true, LabelPool.anyDominates, List.anyM, pure,
      Except.pure, sift, LabelPool.flag, LabelPool.setLive, LabelPool.addLive, List.foldl_nil,
      hclear, hlive, List.length_nil, Nat.add_zero]

/-- The first label is the only one at the start. -/
theorem history_start (h : search.source < search.network.numNodes) :
    search.start.pool.history = [search.firstLabel] := by
  rw [start_pool search h]
  rfl

/-- The first label is the only one that is live at the start. -/
theorem liveAt_start (h : search.source < search.network.numNodes) (node : Nat) :
    search.start.pool.liveAt node = if node = search.source then #[0] else #[] := by
  rw [start_pool search h, LabelPool.liveAt, Array.getElem?_setIfInBounds]
  by_cases heq : search.source = node
  · subst heq
    simp [h]
  · rw [if_neg heq, if_neg (Ne.symm heq)]
    by_cases hlt : node < search.network.numNodes <;> simp [hlt]

/-- No label is extended at the start. -/
theorem extended_start_ne (id : Nat) : search.start.extended[id]? ≠ some true := by
  change (#[false] : Array Bool)[id]? ≠ some true
  cases id <;> simp

end Start

variable [Quantity α]

/-- The books of a search at one of its points. -/
structure Books (search : PathSearch Int α) (costs : Array α) (config : Config α) : Prop where
  sound : config.state.pool.Sound
  size_live : config.state.pool.live.size = search.network.numNodes
  size_extended : config.state.extended.size = config.state.pool.numCreated
  numbered : ∀ (id : Nat) label, config.state.pool.history[id]? = some label → label.id = (id : Int)
  queue_lt : ∀ node ∈ config.state.queue, node < search.network.numNodes
  undominated : search.settings.useDominance = true → ∀ node, config.state.pool.Undominated node
  phase : config.phase.Fits search costs config.state

/-- A live label stands at the node that lists it. -/
theorem Books.standsAt {config : Config α} (h : Books search costs config) {node id : Nat}
    (hlive : id ∈ config.state.pool.liveAt node) : StandsAt config.state.pool node id := by
  obtain ⟨label, hlabel, hnode, -⟩ := h.sound.live node id hlive
  exact ⟨label.unflagged, by rw [LabelPool.getElem?_history, hlabel]; rfl, hnode⟩

/-- The books are in order when a search starts. -/
theorem Books.start (hwell : search.WellFormed) : Books search costs ⟨.idle, search.start⟩ := by
  have hsource := hwell.source_lt
  have hlive : ∀ node id, id ∈ search.start.pool.liveAt node → node = search.source ∧ id = 0 := by
    intro node id hid
    rw [liveAt_start search hsource] at hid
    split at hid
    · next heq => exact ⟨heq, by simpa using hid⟩
    · simp at hid
  refine ⟨⟨fun node id hid => ?_, fun node => ?_⟩, ?_, ?_, fun id label hlabel => ?_,
    fun node hnode => ?_, fun _ node first hfirst second hsecond hne => ?_, trivial⟩
  · obtain ⟨rfl, rfl⟩ := hlive node id hid
    exact ⟨search.firstLabel, by rw [start_pool search hsource]; rfl, rfl, rfl⟩
  · rw [liveAt_start search hsource]
    split <;> simp
  · change search.start.pool.live.size = _
    simp [start_pool search hsource]
  · change 1 = search.start.pool.numCreated
    rw [← LabelPool.length_history, history_start search hsource]
    rfl
  · change search.start.pool.history[id]? = some label at hlabel
    rw [history_start search hsource, List.getElem?_singleton] at hlabel
    split at hlabel
    · next heq =>
      rw [heq, ← Option.some.inj hlabel]
      rfl
    · simp at hlabel
  · rw [List.mem_singleton.mp hnode]
    exact hsource
  · exact absurd ((hlive node first hfirst).2.trans (hlive node second hsecond).2.symm) hne

/-- What is known of a label that a search creates: it extends the label at hand along an arc of its
node, and is inserted at the end of that arc. -/
structure Growth (search : PathSearch Int α) (costs : Array α) (state : State Int α) (node id : Nat)
    (label : Label Int α) (arc : Arc Int α) (price : α) (used : List α) (cost : α)
    (pool : LabelPool Int α) (target : Nat) (inserted : Bool) : Prop where
  label_eq : state.pool.history[id]? = some label.unflagged
  id_eq : label.id = (id : Int)
  node_eq : label.node = (node : Int)
  mem_arcs : (arc, price) ∈ search.arcsFrom costs node
  target_eq : arc.target = (target : Int)
  target_lt : target < search.network.numNodes
  resources : extendResources label.resources arc.consumption = .ok used
  within : Window.containsAll search.network.windows used = .ok true
  total : Quantity.add? label.cost price = .ok cost
  inserted : (withExtension state.pool label arc used cost).insert state.pool.numCreated
    search.settings.useDominance = (pool, .ok inserted)

/-- An extension stays inside the windows with the totals that the arc gives. -/
theorem of_extension_inside {pool : LabelPool Int α} {label : Label Int α} {arc : Arc Int α}
    {price : α} {used : List α} {cost : α}
    (h : search.extension pool label arc price = .ok (.inside used cost)) :
    extendResources label.resources arc.consumption = .ok used ∧
      Window.containsAll search.network.windows used = .ok true ∧
      Quantity.add? label.cost price = .ok cost := by
  obtain ⟨resources, hresources, h⟩ := bind_eq_ok.mp h
  obtain ⟨within, hwithin, h⟩ := bind_eq_ok.mp h
  cases within with
  | false => simp [pure, Except.pure] at h
  | true =>
    obtain ⟨full, -, h⟩ := bind_eq_ok.mp h
    cases full with
    | true => simp [pure, Except.pure] at h
    | false =>
      obtain ⟨total, htotal, h⟩ := bind_eq_ok.mp h
      simp only [pure, Except.pure, Except.ok.injEq, Extension.inside.injEq] at h
      obtain ⟨rfl, rfl⟩ := h
      exact ⟨hresources, hwithin, htotal⟩

/-- An extension that is dropped leaves a window. -/
theorem of_extension_outside {pool : LabelPool Int α} {label : Label Int α} {arc : Arc Int α}
    {price : α} {used : List α} (h : search.extension pool label arc price = .ok .outside)
    (hused : extendResources label.resources arc.consumption = .ok used) :
    Window.containsAll search.network.windows used ≠ .ok true := by
  intro hwithin
  simp only [extension, hused, hwithin, bind, Except.bind] at h
  obtain ⟨full, -, h⟩ := bind_eq_ok.mp h
  cases full with
  | true => simp [pure, Except.pure] at h
  | false =>
    obtain ⟨total, -, h⟩ := bind_eq_ok.mp h
    simp [pure, Except.pure] at h

/-- A search that creates a label with its books in order grows in the way stated. -/
theorem Books.growth (hwell : search.WellFormed) {state : State Int α} {node id : Nat}
    {todo : List Nat} {label : Label Int α} {arc : Arc Int α} {price : α}
    {arcs : List (Arc Int α × α)} {used : List α} {cost : α} {pool : LabelPool Int α}
    {target : Nat} {inserted : Bool}
    (h : Books search costs ⟨.extending node todo id label ((arc, price) :: arcs), state⟩)
    (hinside : search.extension state.pool label arc price = .ok (.inside used cost))
    (htarget : (withExtension state.pool label arc used cost).nodeAt arc.target = .ok target)
    (hinsert : (withExtension state.pool label arc used cost).insert state.pool.numCreated
      search.settings.useDominance = (pool, .ok inserted)) :
    Growth search costs state node id label arc price used cost pool target inserted := by
  obtain ⟨-, hlabel, hnode, -, hsuffix⟩ := h.phase
  have hmem : (arc, price) ∈ search.arcsFrom costs node := hsuffix.mem List.mem_cons_self
  have hend := hwell.network.hasTarget arc (hwell.mem_arcs hmem).1
  have hlt : arc.target.toNat < search.network.numNodes := by
    have := hend.1
    have := hend.2
    omega
  have hplace : (withExtension state.pool label arc used cost).nodeAt arc.target =
      .ok arc.target.toNat := by
    have hcast : arc.target = (arc.target.toNat : Int) := (Int.toNat_of_nonneg hend.1).symm
    rw [hcast, Int.toNat_natCast]
    exact LabelPool.nodeAt_natCast (h.size_live.symm ▸ hlt)
  have heq : target = arc.target.toNat := Except.ok.inj (htarget.symm.trans hplace)
  obtain ⟨hresources, hwithin, htotal⟩ := of_extension_inside hinside
  refine ⟨hlabel, h.numbered id label.unflagged hlabel, hnode, hmem, ?_, heq ▸ hlt, hresources,
    hwithin, htotal, hinsert⟩
  rw [heq, Int.toNat_of_nonneg hend.1]

namespace Growth

variable {phase : Phase α} {state : State Int α} {node id : Nat} {label : Label Int α}
  {arc : Arc Int α} {price : α} {used : List α} {cost : α} {pool : LabelPool Int α} {target : Nat}
  {inserted : Bool}

/-- The created label stands at the end of the history. -/
theorem history_eq
    (g : Growth search costs state node id label arc price used cost pool target inserted) :
    pool.history = state.pool.history ++ [newLabel state.pool label arc used cost] := by
  have h := LabelPool.history_insert (withExtension state.pool label arc used cost)
    state.pool.numCreated search.settings.useDominance
  rw [g.inserted, history_withExtension] at h
  exact h

/-- One label is created. -/
theorem numCreated_eq
    (g : Growth search costs state node id label arc price used cost pool target inserted) :
    pool.numCreated = state.pool.numCreated + 1 := by
  rw [← LabelPool.length_history, g.history_eq, List.length_append, LabelPool.length_history]
  rfl

/-- Labels of the history stay in it. -/
theorem getElem?_history
    (g : Growth search costs state node id label arc price used cost pool target inserted)
    {other : Nat} {known : Label Int α} (h : state.pool.history[other]? = some known) :
    pool.history[other]? = some known :=
  getElem?_of_isPrefix ⟨_, g.history_eq.symm⟩ h

/-- The created label is the last one. -/
theorem getElem?_numCreated
    (g : Growth search costs state node id label arc price used cost pool target inserted) :
    pool.history[state.pool.numCreated]? = some (newLabel state.pool label arc used cost) := by
  rw [g.history_eq, ← LabelPool.length_history, List.getElem?_concat_length]

/-- A label of the history was there before or is the one created. -/
theorem history_cases
    (g : Growth search costs state node id label arc price used cost pool target inserted)
    {other : Nat} {known : Label Int α} (h : pool.history[other]? = some known) :
    state.pool.history[other]? = some known ∨
      (other = state.pool.numCreated ∧ known = newLabel state.pool label arc used cost) := by
  rw [g.history_eq, List.getElem?_append] at h
  split at h
  · exact Or.inl h
  · next hge =>
    rw [List.getElem?_singleton, LabelPool.length_history] at h
    rw [LabelPool.length_history] at hge
    split at h
    · exact Or.inr ⟨by omega, (Option.some.inj h).symm⟩
    · simp at h

variable (g : Growth search costs state node id label arc price used cost pool target inserted)
  (h : Books search costs ⟨phase, state⟩)

include g h

/-- The end of the arc is a node of the pool. -/
theorem target_lt_size :
    target < (withExtension state.pool label arc used cost).live.size :=
  h.size_live.symm ▸ g.target_lt

/-- The pool lists as many nodes as before. -/
theorem size_live : pool.live.size = search.network.numNodes := by
  rw [LabelPool.size_live_insert (getElem?_withExtension state.pool label arc used cost)
    g.target_eq (g.target_lt_size h) g.inserted]
  exact h.size_live

/-- A label that is live was so before, or is the created one. -/
theorem live_cases {other place : Nat} (hother : other ∈ pool.liveAt place) :
    other ∈ state.pool.liveAt place ∨
      (place = target ∧ other = state.pool.numCreated ∧ inserted = true) :=
  LabelPool.mem_liveAt_of_insert (getElem?_withExtension state.pool label arc used cost)
    g.target_eq (g.target_lt_size h) g.inserted hother

/-- A live label stays so, or the created label has joined its node and dominates it. -/
theorem live_or_dominated {other place : Nat} {known : Label Int α}
    (hknown : state.pool.history[other]? = some known) (hother : other ∈ state.pool.liveAt place) :
    other ∈ pool.liveAt place ∨
      (search.settings.useDominance = true ∧ inserted = true ∧ place = target ∧
        (newLabel state.pool label arc used cost).dominates known = .ok true) := by
  rcases LabelPool.mem_liveAt_or_dominates (getElem?_withExtension state.pool label arc used cost)
    g.target_eq (g.target_lt_size h) g.inserted hother with hlive | ⟨hcheck, hjoined, hplace, hdom⟩
  · exact Or.inl hlive
  · refine Or.inr ⟨hcheck, hjoined, hplace, ?_⟩
    rw [LabelPool.dominates_of_history (getElem?_history_withExtension state.pool label arc used cost)
      (getElem?_of_isPrefix (prefix_withExtension state.pool label arc used cost) hknown)] at hdom
    exact hdom

/-- The created label is live at the end of the arc, or a live label there dominates it and no live
list has changed. -/
theorem created_cases :
    (inserted = true ∧ state.pool.numCreated ∈ pool.liveAt target) ∨
      (inserted = false ∧ search.settings.useDominance = true ∧
        (∀ place, pool.liveAt place = state.pool.liveAt place) ∧
        ∃ other ∈ state.pool.liveAt target, ∃ known, state.pool.history[other]? = some known ∧
          known.dominates (newLabel state.pool label arc used cost) = .ok true) := by
  have hlabel := getElem?_withExtension state.pool label arc used cost
  cases hinserted : inserted with
  | true =>
    exact Or.inl ⟨rfl, LabelPool.mem_liveAt_insert hlabel g.target_eq (g.target_lt_size h)
      g.inserted hinserted⟩
  | false =>
    obtain ⟨hcheck, ⟨other, hother, hdom⟩, hlive⟩ := LabelPool.exists_dominates_of_insert hlabel
      g.target_eq (g.target_lt_size h) g.inserted hinserted
    obtain ⟨known, hknown, -⟩ := h.standsAt hother
    refine Or.inr ⟨rfl, hcheck, hlive, other, hother, known, hknown, ?_⟩
    rw [LabelPool.dominates_of_history
      (getElem?_of_isPrefix (prefix_withExtension state.pool label arc used cost) hknown)
      (getElem?_history_withExtension state.pool label arc used cost)] at hdom
    exact hdom

/-- A created label that is checked and live was dominated by no live label at the end of the arc. -/
theorem not_dominated (hcheck : search.settings.useDominance = true) (hinserted : inserted = true)
    {other : Nat} {known : Label Int α} (hother : other ∈ state.pool.liveAt target)
    (hknown : state.pool.history[other]? = some known) :
    known.dominates (newLabel state.pool label arc used cost) = .ok false := by
  rcases LabelPool.insert_at_cases (getElem?_withExtension state.pool label arc used cost)
    g.target_eq (g.target_lt_size h) g.inserted with
    ⟨hunchecked, -⟩ | ⟨-, hturned, -⟩ | ⟨-, -, left, removed, hadmits, -⟩
  · rw [hcheck] at hunchecked
    cases hunchecked
  · rw [hinserted] at hturned
    cases hturned
  · have hdom := hadmits.undominated other hother
    rwa [LabelPool.dominates_of_history
      (getElem?_of_isPrefix (prefix_withExtension state.pool label arc used cost) hknown)
      (getElem?_history_withExtension state.pool label arc used cost)] at hdom

/-- The pool stays sound. -/
theorem sound : pool.Sound := by
  have hsound : (withExtension state.pool label arc used cost).Sound := by
    refine ⟨fun place other hother => ?_, h.sound.nodup⟩
    obtain ⟨known, hknown, hat, hflag⟩ := h.sound.live place other hother
    refine ⟨known, ?_, hat, hflag⟩
    change (state.pool.arena.push _)[other]? = some known
    rw [Array.getElem?_push_lt (Array.getElem?_eq_some_iff.mp hknown).1]
    exact congrArg some (Array.getElem?_eq_some_iff.mp hknown).2
  refine hsound.insert (getElem?_withExtension state.pool label arc used cost) g.target_eq
    (g.target_lt_size h) g.inserted rfl fun place hfresh => ?_
  obtain ⟨known, hknown, -⟩ := h.sound.live place _ hfresh
  exact Nat.lt_irrefl _ (Array.getElem?_eq_some_iff.mp hknown).1

/-- With dominance, live labels still do not dominate one another. -/
theorem undominated (hcheck : search.settings.useDominance = true) (place : Nat) :
    pool.Undominated place := by
  have hclear : (withExtension state.pool label arc used cost).Undominated place := by
    intro first hfirst second hsecond hne
    have hinitial := prefix_withExtension state.pool label arc used cost
    have hold := h.undominated hcheck place first hfirst second hsecond hne
    obtain ⟨one, hone, -⟩ := h.standsAt hfirst
    obtain ⟨two, htwo, -⟩ := h.standsAt hsecond
    rw [LabelPool.dominates_of_history hone htwo] at hold
    rw [LabelPool.dominates_of_history (getElem?_of_isPrefix hinitial hone)
      (getElem?_of_isPrefix hinitial htwo)]
    exact hold
  exact hclear.insert (getElem?_withExtension state.pool label arc used cost) g.target_eq
    (g.target_lt_size h) g.inserted hcheck

end Growth

/-- The sweep that closes a visit changes nothing. -/
theorem Books.sweep_eq {phase : Phase α} {state : State Int α}
    (h : Books search costs ⟨phase, state⟩) (hcheck : search.settings.useDominance = true)
    (node : Nat) : state.pool.sweep node = (state.pool, .ok 0) :=
  LabelPool.sweep_of_undominated (h.sound.nodup node) (h.undominated hcheck node)

/-- A move keeps the books in order. -/
theorem Books.move (hwell : search.WellFormed) {before after : Config α}
    (h : Books search costs before) (hmove : Move search costs before after) :
    Books search costs after := by
  cases hmove with
  | pop hstop hqueue =>
    have hnode := h.queue_lt _ (hqueue ▸ List.mem_cons_self)
    exact ⟨h.sound, h.size_live, h.size_extended, h.numbered,
      fun other hother => h.queue_lt other (hqueue ▸ List.mem_cons_of_mem _ hother),
      h.undominated, hnode, fun id hid => h.standsAt (Array.mem_toList_iff.mp hid)⟩
  | skip hskip =>
    exact ⟨h.sound, h.size_live, h.size_extended, h.numbered, h.queue_lt, h.undominated,
      h.phase.1, fun id hid => h.phase.2 id (List.mem_cons_of_mem _ hid)⟩
  | @begin state node id todo label hlabel hflag hnew =>
    have hhistory : state.pool.history[id]? = some label.unflagged := by
      rw [LabelPool.getElem?_history, hlabel]
      rfl
    obtain ⟨known, hknown, hnode⟩ := h.phase.2 id List.mem_cons_self
    rw [hhistory, Option.some.injEq] at hknown
    have hlt : id < state.extended.size := by
      rw [h.size_extended]
      exact (Array.getElem?_eq_some_iff.mp hlabel).1
    refine ⟨h.sound, h.size_live, ?_, h.numbered, h.queue_lt, h.undominated,
      ⟨h.phase.1, fun other hother => h.phase.2 other (List.mem_cons_of_mem _ hother)⟩, hhistory,
      ?_, ?_, List.suffix_refl _⟩
    · simpa using h.size_extended
    · rw [← hknown] at hnode
      exact hnode
    · exact Array.getElem?_setIfInBounds_self_of_lt hlt
  | outside houtside =>
    obtain ⟨htodo, hlabel, hnode, hextended, hsuffix⟩ := h.phase
    exact ⟨h.sound, h.size_live, h.size_extended, h.numbered, h.queue_lt, h.undominated, htodo,
      hlabel, hnode, hextended, (List.suffix_cons _ _).trans hsuffix⟩
  | full hfull =>
    exact ⟨h.sound, h.size_live, h.size_extended, h.numbered, h.queue_lt, h.undominated,
      h.phase.1.1, by simp⟩
  | @grow state node id todo label arc price arcs used cost pool target inserted hinside htarget
      hinsert =>
    have g := h.growth hwell hinside htarget hinsert
    obtain ⟨⟨hnode, htodo⟩, hlabel, hat, hextended, hsuffix⟩ := h.phase
    have hlt := (Array.getElem?_eq_some_iff.mp hextended).1
    refine ⟨?_, ?_, ?_, fun other known hknown => ?_, fun other hother => ?_, fun hcheck place => ?_,
      ⟨hnode, fun other hother => ?_⟩, ?_, hat, ?_, (List.suffix_cons _ _).trans hsuffix⟩
    · simpa using g.sound h
    · simpa using g.size_live h
    · simpa [g.numCreated_eq] using h.size_extended
    · simp only [State.grown_pool] at hknown
      rcases g.history_cases hknown with hold | ⟨rfl, rfl⟩
      · exact h.numbered other known hold
      · rfl
    · simp only [State.grown_queue] at hother
      split at hother
      · rcases List.mem_append.mp hother with hold | hnew
        · exact h.queue_lt other hold
        · rw [List.mem_singleton.mp hnew]
          exact g.target_lt
      · exact h.queue_lt other hother
    · simpa using g.undominated h hcheck place
    · simp only [State.grown_pool]
      exact (htodo other hother).mono ⟨_, g.history_eq.symm⟩
    · simp only [State.grown_pool]
      exact g.getElem?_history hlabel
    · simp only [State.grown_extended]
      rw [Array.getElem?_push_lt hlt]
      exact congrArg some (Array.getElem?_eq_some_iff.mp hextended).2
  | finish =>
    exact ⟨h.sound, h.size_live, h.size_extended, h.numbered, h.queue_lt, h.undominated, h.phase.1⟩
  | @sweep state node count pool hcheck hsweep =>
    simp only [h.sweep_eq hcheck, Prod.mk.injEq] at hsweep
    obtain ⟨rfl, -⟩ := hsweep
    exact ⟨h.sound, h.size_live, h.size_extended, h.numbered, h.queue_lt, h.undominated, trivial⟩
  | leave hcheck =>
    exact ⟨h.sound, h.size_live, h.size_extended, h.numbered, h.queue_lt, h.undominated, trivial⟩

/-- The books are in order at every point of a search. -/
theorem Reached.books (hwell : search.WellFormed) {config : Config α}
    (h : Reached search costs config) : Books search costs config :=
  h.induct (Books.start hwell) fun _ _ _ hmove hbooks => hbooks.move hwell hmove

/-- A move leaves the labels as they are, or creates one. -/
theorem Books.pool_cases (hwell : search.WellFormed) {before after : Config α}
    (h : Books search costs before) (hmove : Move search costs before after) :
    after.state.pool = before.state.pool ∨
      ∃ node todo id label arc price arcs used cost target inserted,
        before.phase = .extending node todo id label ((arc, price) :: arcs) ∧
        after.phase = .extending node todo id label arcs ∧
        after.state.extended = before.state.extended.push false ∧
        Growth search costs before.state node id label arc price used cost after.state.pool target
          inserted := by
  cases hmove with
  | pop hstop hqueue => exact Or.inl rfl
  | skip hskip => exact Or.inl rfl
  | begin hlabel hflag hnew => exact Or.inl rfl
  | outside houtside => exact Or.inl rfl
  | full hfull => exact Or.inl rfl
  | @grow state node id todo label arc price arcs used cost pool target inserted hinside htarget
      hinsert =>
    refine Or.inr ⟨node, todo, id, label, arc, price, arcs, used, cost, target, inserted, rfl, rfl,
      State.grown_extended .., ?_⟩
    simpa using h.growth hwell hinside htarget hinsert
  | finish => exact Or.inl rfl
  | sweep hcheck hsweep =>
    simp only [h.sweep_eq hcheck, Prod.mk.injEq] at hsweep
    exact Or.inl hsweep.1.symm
  | leave hcheck => exact Or.inl rfl

/-- Labels stay in the history along the moves of a search. -/
theorem Reached.history_isPrefix (hwell : search.WellFormed) {before after : Config α}
    (h : Reached search costs before) (hmoves : Moves search costs before after) :
    before.state.pool.history <+: after.state.pool.history := by
  induction hmoves with
  | refl => exact List.prefix_refl _
  | tail hfirst hlast ih =>
    refine ih.trans ?_
    rcases (Reached.books hwell (h.trans hfirst)).pool_cases hwell hlast with hsame |
      ⟨_, _, _, _, _, _, _, _, _, _, _, -, -, -, g⟩
    · exact hsame ▸ List.prefix_refl _
    · exact ⟨_, g.history_eq.symm⟩

end PathSearch

end PatternCovering
