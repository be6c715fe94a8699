import PatternCovering.Arc
import PatternCovering.Window

/-!
# Networks

A network has named nodes, arcs between them, one window for each resource, and, once they are
chosen, a source and a sink. The arcs that leave a node are listed in the order in which they were
added. With integers as positions every operation either gives the extended network or refuses, and
then nothing has changed. A source of an arc that is in range but is no integer is noticed only
when the arc is listed, so that such an arc stays in the network without leaving any node.
-/

namespace PatternCovering

/-- Nodes, arcs and resource windows, with the two ends of the paths to be priced. -/
structure Network (ι α : Type) where
  windows : List (Window α) := []
  names : Array Datum := #[]
  arcs : Array (Arc ι α) := #[]
  outgoing : Array (List Nat) := #[]
  source : Option ι := none
  sink : Option ι := none

namespace Network

variable {ι α : Type} [Position ι] [Quantity α]

/-- The number of nodes. -/
def numNodes (network : Network ι α) : Nat := network.names.size

/-- The number of resources. -/
def numResources (network : Network ι α) : Nat := network.windows.length

/-- The node with the given name. -/
def node? (network : Network ι α) (name : Datum) : Option Nat :=
  network.names.findIdx? (·.same name)

/-- The node with the given name, which must be a key. -/
def nodeNamed (network : Network ι α) (name : Datum) : Except Fault (Option Nat) := do
  name.requireKey
  return network.node? name

/-- The name of the next node: the given one, else its index. -/
def nextName (network : Network ι α) : Datum → Datum
  | .null => .text (toString network.numNodes)
  | given => given

/-- Adds a node under its name, or under its index if it has none. -/
def addNode (network : Network ι α) (given : Datum) : Except Fault (Network ι α × Nat) := do
  let name := network.nextName given
  match ← network.nodeNamed name with
  | some _ => .error (.nodeNameTaken name)
  | none =>
    return ({ network with
              names := network.names.push name
              outgoing := network.outgoing.push [] }, network.numNodes)

/-- Adds the node where all paths begin. -/
def addSource (network : Network ι α) (name : Datum) : Except Fault (Network ι α × Nat) :=
  match network.source with
  | some _ => .error .sourceTaken
  | none => do
    let (extended, index) ← network.addNode name
    return ({ extended with source := some (Position.ofNat index) }, index)

/-- Adds the node where all priced paths end. -/
def addSink (network : Network ι α) (name : Datum) : Except Fault (Network ι α × Nat) :=
  match network.sink with
  | some _ => .error .sinkTaken
  | none => do
    let (extended, index) ← network.addNode name
    return ({ extended with sink := some (Position.ofNat index) }, index)

/-- Refuses a position at which there is no node. -/
def checkNode (network : Network ι α) (role : String) (node : ι) : Except Fault Unit := do
  let refused := Fault.nodeOutOfBounds role (Position.report node)
  if ← Position.lt node (Position.ofInt 0) then .error refused
  else if ← Position.le (Position.ofNat network.numNodes) node then .error refused

/-- Makes an existing node the source. -/
def setSource (network : Network ι α) (node : ι) : Except Fault (Network ι α) := do
  network.checkNode "Source" node
  return { network with source := some node }

/-- Makes an existing node the sink. -/
def setSink (network : Network ι α) (node : ι) : Except Fault (Network ι α) := do
  network.checkNode "Sink" node
  return { network with sink := some node }

/-- Refuses a negative item. -/
def checkItem (item : Option ι) : Except Fault Unit := do
  match item with
  | none => return
  | some item =>
    if ← Position.lt item (Position.ofInt 0) then .error (.itemNegative (Position.report item))

/-- Refuses an arc whose ends do not exist. -/
def checkEnds (network : Network ι α) (source target : ι) : Except Fault Unit := do
  network.checkNode "Source" source
  network.checkNode "Target" target

/-- Refuses an arc whose ends do not exist, whose consumption has not one entry for each resource,
or whose item is negative. -/
def checkArc (network : Network ι α) (source target : ι) (consumption : List α)
    (item : Option ι) : Except Fault Unit := do
  network.checkEnds source target
  if consumption.length ≠ network.numResources then
    .error (.consumptionLength consumption.length network.numResources)
  else checkItem item

/-- Adds an arc between existing nodes. Its consumption has one entry for each resource, all of them
zero if none are given. -/
def addArc (network : Network ι α) (source target : ι) (cost : α) (consumption : Option (List α))
    (item : Option ι) (attributes : Table Datum) : Network ι α × Except Fault Nat :=
  let consumption := consumption.getD (List.replicate network.numResources Quantity.zero)
  match network.checkArc source target consumption item with
  | .error fault => (network, .error fault)
  | .ok () =>
    let index := network.arcs.size
    let arc : Arc ι α := { index := Position.ofNat index, source, target, cost, consumption, item
                           attributes := .table attributes }
    let joined := { network with arcs := network.arcs.push arc }
    match Position.place network.outgoing.size source with
    | .error fault => (joined, .error fault)
    | .ok place =>
      ({ joined with outgoing := network.outgoing.modify place (· ++ [index]) }, .ok index)

/-- The name of the node at a position. -/
def nodeName (network : Network ι α) (node : ι) : Except Fault Datum :=
  Position.element network.names node

/-- The arc at a position. -/
def arcAt (network : Network ι α) (index : ι) : Except Fault (Arc ι α) :=
  Position.element network.arcs index

/-- The arcs that leave the node at a position. -/
def outgoingAt (network : Network ι α) (node : ι) : Except Fault (List (Arc ι α)) := do
  let indices ← Position.element network.outgoing node
  return indices.filterMap (network.arcs[·]?)

/-- The larger one of two items, the first one unless the second one is above it. -/
def largerItem (largest item : ι) : ι :=
  match Position.lt largest item with
  | .ok true => item
  | _ => largest

/-- The largest item that an arc covers, or `-1` if none does. -/
def maxItem (network : Network ι α) : ι :=
  match network.arcs.toList.filterMap (·.item) with
  | [] => Position.ofInt (-1)
  | item :: items => items.foldl largerItem item

/-- What keeps the network from being used for pricing. -/
def issues (network : Network ι α) : Except Fault (List String) := do
  let missing :=
    (if network.source.isNone then [Fault.noSource.message] else []) ++
      (if network.sink.isNone then [Fault.noSink.message] else [])
  match network.source with
  | none => return missing
  | some node =>
    let isolated := (← Position.element network.outgoing node).isEmpty
    return missing ++ (if isolated then ["Source node has no outgoing arcs"] else [])

/-- The network as it is shown. -/
def shown (network : Network ι α) : String :=
  s!"Network(nodes={network.numNodes}, arcs={network.arcs.size}, " ++
    s!"resources={network.numResources})"

end Network

end PatternCovering
