import PatternCovering.Label.Pool
import PatternCovering.Network
import PatternCovering.Offer

/-!
# Pricing by path search

The best pattern that a path of a network stands for. The search extends labels from the source
along arcs, each arc at its cost less the dual of the item it covers. Nodes that gained a label wait
in a queue; a node that is visited extends each of its live labels that was not extended before. An
extension that leaves a resource window is dropped at once. A limit on the number of labels ends the
search early, and the best label at the sink so far is taken.
-/

namespace PatternCovering

/-- A network with the places of its two ends and the number of items that its arcs may cover. -/
structure PathSearch (ι α : Type) where
  network : Network ι α
  source : Nat
  sink : Nat
  numItems : ι
  settings : PricingSettings α

namespace PathSearch

variable {ι α : Type} [Position ι] [Quantity α]

/-- The number of items of a search: the given one, which must be above every item that an arc
covers, else the one after the largest such item. -/
def countItems (largest : ι) (given : Option ι) : Except Fault ι := do
  let count ←
    match given with
    | none => .ok (Position.next largest)
    | some count => do
      if ← Position.le count largest then
        .error (.itemNotPriced (Position.report largest) (Position.report count))
      else .ok count
  if ← Position.lt count (Position.ofInt 0) then .error (.numItemsNegative (Position.report count))
  else return count

/-- A search on a network with both ends. -/
def make (network : Network ι α) (numItems : Option ι) (settings : PricingSettings α) :
    Except Fault (PathSearch ι α) :=
  match network.source, network.sink with
  | none, _ => .error .noSource
  | some _, none => .error .noSink
  | some source, some sink => do
    let numItems ← countItems network.maxItem numItems
    return { network, numItems, settings
             source := ← Position.place network.numNodes source
             sink := ← Position.place network.numNodes sink }

/-- Why a search stops before its queue is empty. -/
inductive Stop where
  | limit
  | fault (cause : Fault)

/-- A search under way: the labels, the nodes that wait with a flag for each node, a flag for each
label that was extended, the number of visits, and whether the search was stopped. -/
structure State (ι α : Type) where
  pool : LabelPool ι α
  queue : List Nat
  waiting : Array Bool
  extended : Array Bool
  visits : Nat := 0
  stop : Option Stop := none

/-- The state in which only the source has a label, at no cost and with no resources used. -/
def start (search : PathSearch ι α) : State ι α :=
  let network := search.network
  let resources := List.replicate network.numResources Quantity.zero
  let bare : LabelPool ι α := LabelPool.ofSize network.numNodes
  let created := bare.create (Position.ofNat search.source) resources Quantity.zero none none
  { pool := (created.insert 0 search.settings.useDominance).1
    queue := [search.source]
    waiting := (Array.replicate network.numNodes false).setIfInBounds search.source true
    extended := #[false] }

/-- Whether the pool has as many labels as allowed. -/
def full (search : PathSearch ι α) (pool : LabelPool ι α) : Except Fault Bool := do
  let limit := search.settings.maxLabels
  if ← Quantity.lt? (Quantity.ofInt 0) limit then
    Quantity.le? limit (Quantity.ofInt pool.numCreated)
  else return false

/-- Puts a node at the end of the queue unless it waits already. -/
def enqueue (state : State ι α) (node : Nat) : State ι α :=
  if state.waiting[node]?.getD false then state
  else
    { state with
      queue := state.queue ++ [node], waiting := state.waiting.setIfInBounds node true }

/-- Creates a label at the end of an arc; if it becomes live, the node has to be visited. -/
def grow (search : PathSearch ι α) (state : State ι α) (label : Label ι α) (arc : Arc ι α)
    (resources : List α) (cost : α) : State ι α :=
  let ⟨known, queue, waiting, extended, visits, stop⟩ := state
  let id := known.numCreated
  let created := known.create arc.target resources cost (some label.id) (some arc.index)
  match created.nodeAt arc.target with
  | .error cause => ⟨created, queue, waiting, extended, visits, some (.fault cause)⟩
  | .ok node =>
    match created.insert id search.settings.useDominance with
    | (pool, .error cause) => ⟨pool, queue, waiting, extended, visits, some (.fault cause)⟩
    | (pool, .ok inserted) =>
      let grown : State ι α := ⟨pool, queue, waiting, extended.push false, visits, stop⟩
      if inserted then enqueue grown node else grown

/-- What becomes of a label along an arc: it leaves a window, there is no room for another label, or
it arrives with its totals. -/
inductive Extension (α : Type) where
  | outside
  | full
  | inside (resources : List α) (cost : α)

/-- What becomes of a label along an arc of the given adjusted cost. -/
def extension (search : PathSearch ι α) (pool : LabelPool ι α) (label : Label ι α) (arc : Arc ι α)
    (arcCost : α) : Except Fault (Extension α) := do
  let resources ← extendResources label.resources arc.consumption
  if ← Window.containsAll search.network.windows resources then
    if ← search.full pool then return .full
    else return .inside resources (← Quantity.add? label.cost arcCost)
  else return .outside

/-- Extends a label along one arc of the given adjusted cost, unless the search was stopped. -/
def extendAlong (search : PathSearch ι α) (label : Label ι α) (state : State ι α)
    (arc : Arc ι α) (arcCost : α) : State ι α :=
  if state.stop.isSome then state
  else
    match search.extension state.pool label arc arcCost with
    | .error cause => { state with stop := some (.fault cause) }
    | .ok .outside => state
    | .ok .full => { state with stop := some .limit }
    | .ok (.inside resources cost) => search.grow state label arc resources cost

/-- The arcs that leave a node, each with its adjusted cost. -/
def arcsFrom (search : PathSearch ι α) (arcCosts : Array α) (node : Nat) : List (Arc ι α × α) :=
  (search.network.outgoing[node]?.getD []).filterMap fun index =>
    match search.network.arcs[index]?, arcCosts[index]? with
    | some arc, some cost => some (arc, cost)
    | _, _ => none

/-- Extends a label along all arcs that leave its node, unless it was dominated or extended before,
or the search was stopped. -/
def extendLabel (search : PathSearch ι α) (arcs : List (Arc ι α × α)) (state : State ι α)
    (id : Nat) : State ι α :=
  if state.stop.isSome then state
  else
    match state.pool.arena[id]? with
    | none => state
    | some label =>
      if label.dominated || state.extended[id]?.getD false then state
      else
        arcs.foldl (fun state (arc, cost) => search.extendAlong label state arc cost)
          { state with extended := state.extended.setIfInBounds id true }

/-- Takes out the dominated labels at a node, unless the search has failed. -/
def tidy (state : State ι α) (node : Nat) : State ι α :=
  match state.stop with
  | some (.fault _) => state
  | _ =>
    match state.pool.sweep node with
    | (pool, .ok _) => { state with pool }
    | (pool, .error cause) => { state with pool, stop := some (.fault cause) }

/-- Visits a node: extends the labels that were live at it when the visit began, then takes out the
ones that are dominated. -/
def visit (search : PathSearch ι α) (arcCosts : Array α) (state : State ι α) (node : Nat) :
    State ι α :=
  let arcs := search.arcsFrom arcCosts node
  let visited := (state.pool.liveAt node).foldl (search.extendLabel arcs) state
  if search.settings.useDominance then tidy visited node else visited

/-- Takes the first node off the queue and visits it. -/
def step (search : PathSearch ι α) (arcCosts : Array α) (state : State ι α) : State ι α :=
  match state.queue with
  | [] => state
  | node :: rest =>
    search.visit arcCosts { state with
      queue := rest
      waiting := state.waiting.setIfInBounds node false
      visits := state.visits + 1 } node

/-- Whether nothing is left to visit or the search was stopped. -/
def State.isFinished (state : State ι α) : Bool := state.queue.isEmpty || state.stop.isSome

/-- Takes steps until the search is finished, at most `fuel` of them. -/
def run (search : PathSearch ι α) (arcCosts : Array α) : (fuel : Nat) → State ι α → State ι α
  | 0, state => state
  | fuel + 1, state =>
    if state.isFinished then state else search.run arcCosts fuel (search.step arcCosts state)

/-- The costs of all arcs less the duals of the items they cover. -/
def arcCosts (search : PathSearch ι α) (duals : List α) : Except Fault (Array α) :=
  search.network.arcs.mapM fun arc => arc.reducedCost (Position.entry duals)

/-- Whether a label is better than another: cheaper, or equally cheap and older. -/
def better (label other : Nat × Label ι α) : Bool :=
  if Quantity.eq label.2.cost other.2.cost then label.1 < other.1
  else Quantity.lt label.2.cost other.2.cost

/-- The best of some labels by their identifiers, the first one where none is better. -/
def best? : List (Nat × Label ι α) → Option (Label ι α)
  | [] => none
  | label :: rest =>
    some (rest.foldl (fun best label => if better label best then label else best) label).2

/-- The best live label at the sink. -/
def bestAtSink? (search : PathSearch ι α) (pool : LabelPool ι α) : Option (Label ι α) :=
  best? ((pool.liveAt search.sink).toList.filterMap fun id => pool.arena[id]?.map (id, ·))

/-- The counts of the items with those that the arcs of a path cover added. -/
def countAlong (counts : List Nat) : List (Arc ι α) → Except Fault (List Nat)
  | [] => .ok counts
  | arc :: rest =>
    match arc.item with
    | none => countAlong counts rest
    | some item => do
      let place ← Position.place counts.length item
      countAlong (counts.modify place (· + 1)) rest

/-- The counts of as many items as there are, all of them zero. -/
def noCounts (search : PathSearch ι α) : Except Fault (List Nat) := do
  return List.replicate (← Position.toInt search.numItems).toNat 0

/-- The column that a label at the sink stands for: the pattern of its path, at the cost of a
pattern and of the arcs. -/
def columnOf (search : PathSearch ι α) (pool : LabelPool ι α) (label : Label ι α) :
    Except Fault (Column α) := do
  let zeros ← search.noCounts
  let indices := (← pool.arcPath label).filterMap id
  let path ← indices.mapM search.network.arcAt
  let counts ← countAlong zeros path
  let pathCost ← (path.map (·.cost)).foldlM Quantity.add? Quantity.zero
  let cost ← Quantity.add? search.settings.unitCost pathCost
  return { counts, cost, trail := some ⟨indices.map Position.report, label.resources⟩ }

/-- Whether a search was stopped by the limit on labels. -/
def State.hitLimit (state : State ι α) : Bool :=
  match state.stop with
  | some .limit => true
  | _ => false

/-- The offer at the end of a search, without the counts of labels and visits. -/
def offerAt (search : PathSearch ι α) (duals : List α) (state : State ι α) :
    Except Fault (Offer α) := do
  match search.bestAtSink? state.pool with
  | none =>
    let status := if state.hitLimit then .iterationLimit else .infeasible
    return Offer.nothing (← search.noCounts).length search.settings.unitCost status
  | some label =>
    let column ← search.columnOf state.pool label
    let reducedCost ← column.reducedCostUnder duals
    return Offer.ofColumn column reducedCost (if state.hitLimit then .iterationLimit else .optimal)

/-- The state at the end of the search for a vector of duals, in at most `fuel` visits. -/
def explore (search : PathSearch ι α) (fuel : Nat) (duals : List α) :
    Except Fault (State ι α) := do
  let costs ← search.arcCosts duals
  let final := search.run costs fuel search.start
  match final.stop with
  | some (.fault cause) => .error cause
  | _ => if final.isFinished then .ok final else .error .searchUnfinished

/-- What is reported when the limit on labels ended a search. -/
def limitEvents (search : PathSearch ι α) (state : State ι α) : List Event :=
  if state.hitLimit then [.labelLimitReached (Quantity.report search.settings.maxLabels)] else []

/-- The offer for real duals, with what is reported and the labels of the search. -/
def priceReal (search : PathSearch ι α) (fuel : Nat) (duals : List α) :
    List Event × Except Fault (Offer α × LabelPool ι α) :=
  match search.explore fuel duals with
  | .error fault => ([], .error fault)
  | .ok final =>
    match search.offerAt duals final with
    | .error fault => (search.limitEvents final, .error fault)
    | .ok offer =>
      let done := Event.pathsSearched final.pool.numCreated final.pool.numDominated final.visits
        (Quantity.report offer.reducedCost)
      (search.limitEvents final ++ [done],
        .ok ({ offer with
          numCreated := final.pool.numCreated
          numDominated := final.pool.numDominated
          numVisits := final.visits }, final.pool))

/-- The offer for a vector of duals, with what is reported and the labels of the search. -/
def priceWithLabels (search : PathSearch ι α) (fuel : Nat) (duals : List α) :
    List Event × Except Fault (Offer α × LabelPool ι α) :=
  match readDuals search.numItems duals with
  | .error fault => ([], .error fault)
  | .ok duals => search.priceReal fuel duals

/-- The offer for a vector of duals, with what is reported about it. -/
def price (search : PathSearch ι α) (fuel : Nat) (duals : List α) :
    List Event × Except Fault (Offer α) :=
  let (events, outcome) := search.priceWithLabels fuel duals
  (events, outcome.map (·.1))

/-- The oracle as it is shown. -/
def shown (search : PathSearch ι α) : String :=
  s!"LabelingAlgorithm({search.network.shown}, items={Position.plain search.numItems})"

end PathSearch

end PatternCovering
