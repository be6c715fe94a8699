import PatternCovering.Datum.Field
import PatternCovering.Network

/-!
# Networks from plain data

The windows are read first, then the nodes, then the arcs, and last the two ends of the paths. Nodes
are given by their number or by their names, and referred to by position or by name.
-/

namespace PatternCovering

namespace Window

/-- A window from a pair of bounds; the two entries of a record are not such a pair. -/
def readPair (given : Datum) : Except Fault (Window Datum) := do
  match ← given.elements with
  | [_, _] => make (some (← given.entryAt (.int 0))) (some (← given.entryAt (.int 1))) (.text "")
  | _ => .error (.windowNotPair given)

/-- Windows from a list of pairs. -/
def readPairs (given : Datum) : Except Fault (List (Window Datum)) := do
  (← given.elements).mapM readPair

/-- A window from named bounds: from zero on without a lower one, open without an upper one. -/
def readFields (given : Datum) : Except Fault (Window Datum) :=
  make (some ((given.field? "min").getD Quantity.zero)) (given.field? "max")
    ((given.field? "name").getD (.text ""))

end Window

/-- Attributes from plain data: a record makes a table, and other data is kept as it is. -/
def Attributes.read : Option Datum → Attributes
  | none => .table []
  | some (.record fields) => .table (fields.map fun (name, value) => (.text name, value))
  | some kept => .other kept

namespace Arc

/-- An arc on its own from plain data; no other names are known than its parts. -/
def read (given : Datum) : Except Fault (Arc Datum Datum) := do
  given.requireKnown ["index", "source", "target", "cost", "consumption", "item", "attributes"]
  let index ← given.required "index"
  let source ← given.required "source"
  let target ← given.required "target"
  let consumption ← ((given.field? "consumption").getD (.list [])).elements
  return { index, source, target, cost := (given.field? "cost").getD Quantity.zero, consumption
           item := given.presentField? "item"
           attributes := Attributes.read (given.field? "attributes") }

end Arc

namespace Network

/-- A network with as many nodes as given, named by their indices. The names differ, so that none of
them has to be looked up. -/
def ofSize (windows : List (Window Datum)) (numNodes : Nat) : Network Datum Datum :=
  { windows
    names := (Array.range numNodes).map fun (index : Nat) => .text (toString index)
    outgoing := Array.replicate numNodes [] }

/-- Nodes with the given names. -/
def addNamedNodes (network : Network Datum Datum) :
    List Datum → Except Fault (Network Datum Datum)
  | [] => .ok network
  | name :: rest => do
    let (extended, _) ← network.addNode (.text name.plain)
    extended.addNamedNodes rest

/-- A network without arcs: a number of nodes, or their names. -/
def readNodes (windows : List (Window Datum)) : Datum → Except Fault (Network Datum Datum)
  | .number n => do
    return ofSize windows (← Datum.toInt (.number n)).toNat
  | names => do
    ({ windows } : Network Datum Datum).addNamedNodes (← names.elements)

/-- The node that a reference stands for: a name is looked up, all else is a position. -/
def resolve (network : Network Datum Datum) : Datum → Except Fault Datum
  | .text name =>
    match network.node? (.text name) with
    | some index => .ok (.int index)
    | none => .error (.unknownNode name)
  | position => do
    return .int (← position.integer)

/-- An entry of a record that must be there; in nothing else an entry can be looked up by name. -/
def entry (given : Datum) (name : String) : Except Fault Datum :=
  given.entryAt (.text name)

/-- The consumption of an arc if it is given, looked at once the ends of the arc are known to
exist. -/
def readConsumption (network : Network Datum Datum) (source target : Datum)
    (given : Option Datum) : Except Fault (Option (List Datum)) := do
  network.checkEnds source target
  match Datum.present? given with
  | none => return none
  | some value => return some (← value.elements)

/-- Adds an arc given by position or name of its ends. -/
def readArc (network : Network Datum Datum) (given : Datum) :
    Except Fault (Network Datum Datum) := do
  let source ← network.resolve (← entry given "source")
  let target ← network.resolve (← entry given "target")
  let cost ← ((given.field? "cost").getD (.float 0.0)).real
  let consumption ← network.readConsumption source target (given.field? "consumption")
  let (extended, outcome) :=
    network.addArc source target (.float cost) consumption (given.presentField? "item") []
  let _ ← outcome
  return extended

/-- The parts of an arc that may also be given among its attributes. -/
def argumentNames : List String := ["cost", "consumption", "item"]

/-- The attributes of a new arc that are parts of it, and the others. A part that is given twice is
refused. -/
def splitAttributes (given : Datum) :
    Except Fault (List (String × Datum) × List (String × Datum)) := do
  match (given.field? "attributes").getD (.record []) with
  | .record fields =>
    let taken := argumentNames.filter fun name => (given.field? name).isSome
    if fields.any fun (name, _) => (["self", "source", "target"] ++ taken).contains name then
      .error .wrongType
    else return fields.partition fun (name, _) => argumentNames.contains name
  | _ => .error .wrongType

/-- Adds an arc given by the positions of its ends, with all its parts as they stand. -/
def addArcFrom (network : Network Datum Datum) (given : Datum) :
    Network Datum Datum × Except Fault Nat :=
  match (do
    let source ← given.required "source"
    let target ← given.required "target"
    let (parts, attributes) ← splitAttributes given
    let part (name : String) : Option Datum := given.field? name <|> parts.lookup name
    let consumption ← network.readConsumption source target (part "consumption")
    return network.addArc source target ((part "cost").getD Quantity.zero) consumption
      (Datum.present? (part "item")) (attributes.map fun (name, value) => (.text name, value))) with
  | .error fault => (network, .error fault)
  | .ok added => added

/-- A network from plain data, with both ends of its paths. -/
def read (given : Datum) : Except Fault (Network Datum Datum) := do
  given.requireRecord
  let windows ← Window.readPairs ((given.field? "windows").getD (.list []))
  let nodes ← readNodes windows ((given.field? "nodes").getD (.int 0))
  let arcs ← ((given.field? "arcs").getD (.list [])).elements
  let joined ← arcs.foldlM readArc nodes
  match given.field? "source", given.field? "sink" with
  | some source, some sink =>
    let opened ← joined.setSource (← joined.resolve source)
    opened.setSink (← opened.resolve sink)
  | _, _ => .error .endpointsMissing

/-- The name of the source if none is given. -/
def sourceName : Datum := .text "__SOURCE__"

/-- The name of the sink if none is given. -/
def sinkName : Datum := .text "__SINK__"

/-- A network of nodes without arcs, from the part that each of them plays. -/
def ofParts (parts : List Datum) : Except Fault (Network Datum Datum) :=
  parts.foldlM (fun network part => do
    match part with
    | .text "source" => return (← network.addSource sourceName).1
    | .text "sink" => return (← network.addSink sinkName).1
    | _ => return (← network.addNode .null).1) {}

end Network

end PatternCovering
