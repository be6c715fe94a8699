import PatternCovering.Label.Pool
import PatternCovering.Report

/-!
# Reports of labels

A label is reported with its place and its totals, a pool by its live labels and its counts.
-/

namespace PatternCovering

/-- What is reported of every label, with a flag for whether it is dominated. -/
def Label.fields (label : Label Datum Datum) (flag : Datum) : List (String × Report) :=
  [("id", .of label.id), ("node", .of label.node), ("resources", .of label.resources),
    ("cost", .of label.cost), ("predecessor", .of label.predecessor), ("arc", .of label.arc),
    ("dominated", .of flag)]

instance : Reportable (Label Datum Datum) :=
  ⟨fun label => .object (label.fields (.flag label.dominated))⟩

/-- A label on its own, with its flag as given and how it is shown. -/
def Label.details (label : Label Datum Datum) (flag : Datum) : Except Fault Report := do
  return .object (label.fields flag ++
    [("is_source", .of label.isSource), ("repr", .of (← label.shown))])

namespace LabelPool

/-- The counts of a pool. -/
def statistics (pool : LabelPool Datum Datum) : Except Fault Report := do
  return .object [("total_labels", .of pool.numLive), ("total_created", .of pool.numCreated),
    ("total_dominated", .of pool.numDominated), ("dominance_rate", .of (← pool.dominanceRate)),
    ("max_labels_at_node", .of pool.mostAtNode)]

/-- The live labels at a node with the arcs and the nodes of their paths. -/
def pathsTo (pool : LabelPool Datum Datum) (node : Nat) : Except Fault Report := do
  let paths ← (pool.liveAt node).toList.mapM fun (id : Nat) => do
    let label ← pool.get (.int id)
    return Report.list [.of id, .of (← pool.arcPath label), .of (← pool.nodePath label)]
  return .list paths

end LabelPool

end PatternCovering
