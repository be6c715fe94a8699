import PatternCovering.Datum.Field
import PatternCovering.Label.Pool

/-!
# Labels from plain data

A label on its own is given with its identifier and with a flag for whether it is dominated; a label
of a pool gets the next identifier.
-/

namespace PatternCovering

/-- A label on its own from plain data, and its flag as it was given; no other names are known than
its parts. -/
def Label.read (given : Datum) : Except Fault (Label Datum Datum × Datum) := do
  given.requireKnown ["label_id", "node", "resources", "cost", "predecessor", "arc_index",
    "dominated"]
  let resources ← (← given.required "resources").elements
  let id ← given.required "label_id"
  let node ← given.required "node"
  let cost ← given.required "cost"
  let flag := (given.field? "dominated").getD (.flag false)
  return ({ id, node, resources, cost, predecessor := given.presentField? "predecessor"
            arc := given.presentField? "arc_index", dominated := flag.truthy }, flag)

/-- Creates a label of a pool from plain data, and gives its identifier. -/
def LabelPool.createFrom (pool : LabelPool Datum Datum) (given : Datum) :
    Except Fault (LabelPool Datum Datum × Nat) := do
  let node ← given.required "node"
  let cost ← given.required "cost"
  let resources ← (← given.required "resources").elements
  return (pool.create node resources cost (given.presentField? "predecessor")
    (given.presentField? "arc_index"), pool.numCreated)

end PatternCovering
